import ContainerSizing.Proofs.Binary64.Finite
import ContainerSizing.Proofs.Engine.DurationBased.Accounting
import ContainerSizing.Proofs.Recommendation

namespace ContainerSizing

open Binary64 Statistics

theorem Term.isFinite_hours (term : Term) : term.hours.isFinite := by
  have h : (24.0 : Float) = .ofNat 24 := by decide +kernel
  rw [hours, h]
  exact (isFinite_and_value_toFloat_mul term.days (by norm_num)).left

namespace DurationBased

-- Some intervals keep their sizing in range: enough of the candidates for the CPU are finite, and
-- one of the buffers is that are put on the memory.
structure InRange (tuning : Tuning) (es : List (Timestamp × Interval)) : Prop where
  cpu    : nearestRank tuning.cpuPercentile es.length <
    es.countP fun e => (cpuCandidate tuning e.2).isFinite
  memory : ∃ usage spike,
    percentile tuning.memoryPercentile (es.map fun e => memoryUsageSignal e.2) = .ok usage ∧
    percentile tuning.memoryPercentile (es.map fun e => memorySpikeSignal e.2) = .ok spike ∧
    ((usage * (1.0 + tuning.usageBuffer)).isFinite ∨
      (usage + spike * (1.0 + tuning.spikeBuffer)).isFinite)

variable {tuning : Tuning} {w : Window} {term : Term} {r : Recommendation} {x : Float} {z : Sizing}

-- A sizing that comes from `x` either recommends it, or gives a reason not to. There is none for an
-- `x` that is not finite.
def ComesFrom (x : Float) (z : Sizing) : Prop :=
  (∃ unit, z = .ok ⟨x, unit⟩) ∨ x.isFinite ∧ ∃ kind, z = .error kind

theorem ComesFrom.isFinite_iff (h : ComesFrom x z) :
    (∀ q, z = .ok q → q.IsFinite) ↔ x.isFinite := by
  rcases h with ⟨unit, rfl⟩ | ⟨hx, kind, rfl⟩
  case inl =>
    constructor
    · exact fun hf => hf ⟨x, unit⟩ rfl
    · intro hx q hq
      injection hq with hq
      exact hq ▸ hx
  case inr =>
    refine iff_of_true (fun q hq => ?_) hx
    cases hq

section Sizings

variable (ht : tuning.fault? = none) (hw : w.IsSound)
include ht hw

theorem comesFrom_cpu (h : sizeCpu tuning w = .ok z) :
    ∃ x, cpuUsage tuning w = .ok x ∧ ComesFrom x z := by
  have hm := Tuning.isMeasured_of_fault? ht
  obtain ⟨usage, hu, h⟩ := sizeCpu_cases h
  have hn := isNonneg_cpuUsage hw hu
  refine ⟨usage, hu, ?_⟩
  obtain ⟨hzero, rfl⟩ | ⟨_, hidle, rfl⟩ | ⟨_, _, rfl⟩ := h
  · have ⟨hz, _⟩ := isMeasure_iff.mp hm.zeroCpu
    have heq := (beq_iff_value_eq hn.isNumber (isNumber_of_isFinite hz)).mp hzero
    exact .inr ⟨hn.isFinite_of_le hz heq.le, _, rfl⟩
  · have ⟨hone, _⟩ := isMeasure_iff.mp hm.oneMillicore
    exact .inr ⟨hn.isFinite_of_le hone (value_le_of_le hidle), _, rfl⟩
  · exact .inl ⟨_, rfl⟩

theorem comesFrom_memory (h : sizeMemory tuning w = .ok z) :
    ∃ s, MemorySignals.ofWindow tuning w = .ok s ∧ ComesFrom (s.request tuning) z := by
  obtain ⟨signals, hs, ⟨hzero, rfl⟩ | ⟨_, rfl⟩⟩ := sizeMemory_cases h <;> refine ⟨signals, hs, ?_⟩
  · have hn := isNonneg_request ht hw hs
    have hle := ((beq_iff_value_eq hn.isNumber isNumber_zero).mp hzero).le
    exact .inr ⟨hn.isFinite_of_le rfl hle, _, rfl⟩
  · exact .inl ⟨_, rfl⟩

theorem isFinite_cpuUsage_iff (h : cpuUsage tuning w = .ok x) :
    x.isFinite ↔ nearestRank tuning.cpuPercentile w.size <
      w.intervals.countP fun e => (cpuCandidate tuning e.2).isFinite := by
  have hc : ∀ y ∈ w.values (cpuCandidate tuning), IsNonneg y := isNonneg_candidates hw
  obtain ⟨most, hm, ⟨hlt, rfl⟩ | ⟨_, h⟩⟩ := cpuUsage_cases h
  case inl =>
    -- below one core every candidate is finite
    obtain ⟨hone, _⟩ := isMeasure_iff.mp (Tuning.isMeasured_of_fault? ht).oneCore
    have hall : ∀ y ∈ w.values (cpuCandidate tuning), y.isFinite := by
      intro y hy
      have hlt := (largest_lt_iff (fun y hy => (hc y hy).isNumber) hm).mp hlt y hy
      obtain ⟨hn, hn'⟩ := isNumber_of_lt hlt
      exact (hc y hy).isFinite_of_le hone ((lt_iff_value_lt hn hn').mp hlt).le
    have hne : w.intervals ≠ [] := by
      have := List.ne_nil_of_mem (mem_of_largest hm)
      rwa [Window.values, ne_eq, List.map_eq_nil_iff] at this
    exact iff_of_true (hall _ (mem_of_largest hm)) <|
      nearestRank_lt_countP hne fun e he => hall _ (Window.mem_values _ he)
  case inr => exact Window.isFinite_percentile_iff hc h

theorem isFinite_request_iff {s : MemorySignals} (h : MemorySignals.ofWindow tuning w = .ok s) :
    (s.request tuning).isFinite ↔ (s.buffered tuning).isFinite ∨ (s.spiked tuning).isFinite :=
  have ⟨hu, hs⟩ := isNonneg_signals hw h
  have hb := (Tuning.isMeasured_of_fault? ht).usageBuffer
  (isNonneg_buffered hb hu).isFinite_smaller_iff (isNonneg_spiked ht hu hs)

end Sizings

section Recommended

variable {zs : Sizings}

theorem isFinite_current {s : Setting} {res : Resource} {t : Timestamp} {current : Float}
    (hw : w.IsSound) (h : current? w t s res = some current) :
    IsNonneg current ∧ current.isFinite := by
  obtain ⟨i, hi, h⟩ := Option.bind_eq_some_iff.mp h
  obtain ⟨a, ha, rfl⟩ := Option.map_eq_some_iff.mp h
  obtain ⟨⟨t', i⟩, hf, rfl⟩ := Option.map_eq_some_iff.mp hi
  have ⟨_, hm⟩ := Interval.fault?_eq_none_iff.mp (hw t' i (List.mem_of_find?_eq_some hf))
  have hm : isMeasure a.average := hm _ a ha .average
  exact ⟨.of_isMeasure hm, (isMeasure_iff.mp hm).left⟩

-- What a container sets is finite, so the variation is finite whenever the configuration is.
theorem isFinite_recommendation_iff (hz : zs.IsSizings) (hw : w.IsSound) :
    (zs.recommendation term w).IsFinite ↔ ∀ res q, zs.get res = .ok q → q.IsFinite := by
  constructor
  case mp =>
    intro h res q hq
    exact h.config .requests res q (get?_config.trans ((recommended?_eq_some_iff hz).mpr hq))
  case mpr =>
    intro h
    refine ⟨term.isFinite_hours, ?config, ?variation⟩
    case config =>
      intro s res q hq
      exact h res q ((recommended?_eq_some_iff hz).mp (get?_config.symm.trans hq))
    case variation =>
      intro s res v hv
      obtain ⟨q, hq, hv⟩ := Option.bind_eq_some_iff.mp (get?_variation.symm.trans hv)
      obtain ⟨current, hc, rfl⟩ := Option.map_eq_some_iff.mp hv
      have hq := (recommended?_eq_some_iff hz).mp hq
      have ⟨hn, hf⟩ := isFinite_current hw hc
      exact (hz.amount hq).left.isFinite_sub (h res q hq) hn hf

end Recommended

theorem inRange_iff {signals : MemorySignals} {es : List (Timestamp × Interval)}
    (hi : w.intervals = es) (hs : MemorySignals.ofWindow tuning w = .ok signals) :
    InRange tuning es ↔
      nearestRank tuning.cpuPercentile w.size <
          w.intervals.countP (fun e => (cpuCandidate tuning e.2).isFinite) ∧
        ((signals.buffered tuning).isFinite ∨ (signals.spiked tuning).isFinite) := by
  subst hi
  have ⟨hu, hsp⟩ := signals_eq_ok_iff.mp hs
  constructor
  case mp =>
    intro ⟨hc, usage, spike, hu', hsp', hf⟩
    obtain rfl := Except.ok.inj (hu.symm.trans hu')
    obtain rfl := Except.ok.inj (hsp.symm.trans hsp')
    exact ⟨hc, hf⟩
  case mpr => exact fun ⟨hc, hf⟩ => ⟨hc, _, _, hu, hsp, hf⟩

theorem isFinite_iff_inRange (ht : tuning.fault? = none) (hw : w.IsSound)
    (h : recommend tuning term w = .ok r) : r.IsFinite ↔ InRange tuning w.intervals := by
  obtain ⟨cpu, memory, hc, hm, hz, rfl⟩ := sizings_of_recommend ht hw h
  have ⟨usage, hu, hcpu⟩ := comesFrom_cpu ht hw hc
  have ⟨signals, hs, hmemory⟩ := comesFrom_memory ht hw hm
  calc (Sizings.recommendation ⟨cpu, memory⟩ term w).IsFinite
    _ ↔ ∀ res q, Sizings.get ⟨cpu, memory⟩ res = .ok q → q.IsFinite :=
      isFinite_recommendation_iff hz hw
    _ ↔ (∀ q, cpu = .ok q → q.IsFinite) ∧ ∀ q, memory = .ok q → q.IsFinite :=
      ⟨fun h => ⟨h .cpu, h .memory⟩, fun ⟨h, h'⟩ res => by cases res; exacts [h, h']⟩
    _ ↔ usage.isFinite ∧ (signals.request tuning).isFinite :=
      and_congr hcpu.isFinite_iff hmemory.isFinite_iff
    _ ↔ _ := and_congr (isFinite_cpuUsage_iff ht hw hu) (isFinite_request_iff ht hw hs)
    _ ↔ InRange tuning w.intervals := (inRange_iff rfl hs).symm

section Moderate

-- Moderate measures stay in range.

variable {i : Interval} {t : Timestamp}

theorem isUpTo_cpuCandidate (h : i.fault? t = none) (hm : i.IsModerate) :
    IsUpTo 341 (cpuCandidate tuning i) := by
  have hv := Interval.isUpTo_value h hm
  have hpeak (m : Metric) : IsUpTo 340 (peak i m) := by
    simp only [peak]
    split
    · exact (hv m .maximum).larger (hv m .average)
    · exact hv m .average
  have htotal : IsUpTo 341 (peakTotal i) := (hpeak _).add (hpeak _) (by norm_num)
  have hshare : IsUpTo 341 (cpuPerPod i) :=
    ((hv .cpuUsage .total).add (hv .cpuThrottle .total) (by norm_num)).share (by norm_num) _
  simp only [cpuCandidate]
  split
  · exact htotal
  · exact hshare.larger htotal

theorem isUpTo_memoryUsageSignal (h : i.fault? t = none) (hm : i.IsModerate) :
    IsUpTo 340 (memoryUsageSignal i) :=
  have hv := Interval.isUpTo_value h hm
  ((hv .memoryUsage .total).share (by norm_num) _).larger (hv .memoryUsage .maximum)

theorem inRange_of_isModerate (ht : tuning.fault? = none) (hb : value tuning.usageBuffer ≤ 2 ^ 340)
    (hw : w.IsSound) (hne : w.intervals ≠ []) (hm : ∀ e ∈ w.intervals, e.2.IsModerate) :
    InRange tuning w.intervals := by
  have ⟨signals, hs⟩ := exists_signals tuning hne
  refine (inRange_iff rfl hs).mpr ⟨?cpu, .inl ?memory⟩
  case cpu =>
    exact nearestRank_lt_countP hne fun e he =>
      (isUpTo_cpuCandidate (hw e.1 e.2 he) (hm e he)).isFinite (by norm_num)
  case memory =>
    have ⟨hu, _⟩ := signals_eq_ok_iff.mp hs
    obtain ⟨e, he, hu⟩ := List.mem_map.mp (mem_of_percentile hu)
    have husage : IsUpTo 340 signals.usage :=
      hu ▸ isUpTo_memoryUsageSignal (hw e.1 e.2 he) (hm e he)
    have hone : IsUpTo 340 1.0 := ⟨⟨isNumber_of_isFinite rfl, value_one ▸ zero_le_one⟩,
      value_one ▸ one_le_pow₀ one_le_two⟩
    have hbuffer : IsUpTo 340 tuning.usageBuffer :=
      ⟨.of_isMeasure (Tuning.isMeasured_of_fault? ht).usageBuffer, hb⟩
    exact (husage.mul (hone.add hbuffer (by norm_num)) (by norm_num)).isFinite (by norm_num)

end Moderate

end DurationBased

end ContainerSizing
