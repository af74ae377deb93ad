import ContainerSizing.Proofs.Engine.DurationBased.Accounting

namespace ContainerSizing

open Binary64 Statistics

-- What a recommendation requests of a resource, where nothing counts as zero.
def Recommendation.requested (r : Recommendation) (res : Resource) : Float :=
  ((r.config.get? .requests res).map Quantity.amount).getD 0.0

namespace DurationBased

variable {tuning : Tuning} {w : Window} {signals signals' : MemorySignals} {term term' : Term}
variable {r : Recommendation} {t : Timestamp} {i : Interval}

section Signals

-- The memory of one pod, if any pods are known.
def memoryShare (i : Interval) : Float :=
  if memoryPods i > 0 then i.value .memoryUsage .total / (memoryPods i).toFloat else 0.0

theorem isNonneg_memoryShare (h : i.fault? t = none) : IsNonneg (memoryShare i) :=
  (Interval.isNonneg_value h _ _).share (Interval.isFinite_value h _ _) _

theorem value_memoryUsageSignal (h : i.fault? t = none) :
    value (memoryUsageSignal i) =
      max (value (memoryShare i)) (value (i.value .memoryUsage .maximum)) :=
  value_larger (isNonneg_memoryShare h).isNumber (Interval.isNonneg_value h _ _).isNumber

theorem isNonneg_memoryUsageSignal (h : i.fault? t = none) : IsNonneg (memoryUsageSignal i) :=
  (Interval.isNonneg_value h _ _).larger

end Signals

section Request

theorem value_buffered_mono {buffer x y : Float} (hb : isMeasure buffer) (hx : IsNonneg x)
    (hy : IsNonneg y) (h : value x ≤ value y) :
    value (x * (1.0 + buffer)) ≤ value (y * (1.0 + buffer)) := by
  have hm := isNonneg_buffered hb hy
  have ⟨hf, hp⟩ := isFinite_one_add hb
  have hn : IsNonneg (1.0 + buffer) := ⟨isNumber_of_isFinite hf, hp.le⟩
  exact hx.value_mul_le_mul hn hy hn h le_rfl hm.isNumber

variable (ht : tuning.fault? = none)
include ht

theorem value_request (hu : IsNonneg signals.usage) (hs : IsNonneg signals.spike) :
    value (signals.request tuning) =
      min (value (signals.buffered tuning)) (value (signals.spiked tuning)) :=
  value_smaller (isNonneg_buffered (Tuning.isMeasured_of_fault? ht).usageBuffer hu).isNumber
    (isNonneg_spiked ht hu hs).isNumber

theorem value_request_mono (hu : IsNonneg signals.usage) (hs : IsNonneg signals.spike)
    (hu' : IsNonneg signals'.usage) (hs' : IsNonneg signals'.spike)
    (hle : value signals.usage ≤ value signals'.usage)
    (hle' : value signals.spike ≤ value signals'.spike) :
    value (signals.request tuning) ≤ value (signals'.request tuning) := by
  have hm := Tuning.isMeasured_of_fault? ht
  have hspike {x : Float} (hx : IsNonneg x) := isNonneg_buffered hm.spikeBuffer hx
  have hbuffered : value (signals.buffered tuning) ≤ value (signals'.buffered tuning) :=
    value_buffered_mono hm.usageBuffer hu hu' hle
  have hspiked : value (signals.spiked tuning) ≤ value (signals'.spiked tuning) := by
    rw [MemorySignals.spiked, MemorySignals.spiked, hu.value_add (hspike hs),
      hu'.value_add (hspike hs')]
    exact rounded_monotone
      (add_le_add hle (value_buffered_mono hm.spikeBuffer hs hs' hle'))
  rw [value_request ht hu hs, value_request ht hu' hs']
  exact min_le_min hbuffered hspiked

theorem value_usage_le_request (hu : IsNonneg signals.usage) (hs : IsNonneg signals.spike) :
    value signals.usage ≤ value (signals.request tuning) := by
  have hm := Tuning.isMeasured_of_fault? ht
  have ⟨hf, hp⟩ := isFinite_one_add hm.usageBuffer
  have hone := one_le_value_one_add hm.usageBuffer
  have hn := (isNonneg_buffered hm.usageBuffer hu).isNumber
  rw [value_request ht hu hs, le_min_iff]
  constructor
  case left => exact hu.value_le_mul ⟨isNumber_of_isFinite hf, hp.le⟩ hone hn
  case right => exact hu.value_le_add_left (isNonneg_buffered hm.spikeBuffer hs)

-- No usage comes to no request, however large the spikes are.
theorem value_request_eq_zero_iff (hu : IsNonneg signals.usage) (hs : IsNonneg signals.spike) :
    value (signals.request tuning) = 0 ↔ value signals.usage = 0 := by
  have hle := value_usage_le_request ht hu hs
  constructor
  case mp => exact fun h => (h ▸ hle).antisymm hu.nonneg
  case mpr =>
    intro h
    have hzero : value (signals.buffered tuning) = 0 := value_mul_of_value_eq_zero hu.isNumber h
    have hmin : value (signals.request tuning) ≤ value (signals.buffered tuning) :=
      (value_request ht hu hs).trans_le (min_le_left _ _)
    exact (hzero ▸ hmin).antisymm (h ▸ hle)

end Request

section Recommended

variable (ht : tuning.fault? = none) (hw : w.IsSound) (hr : recommend tuning term w = .ok r)
include ht hw hr

-- Without usage there is no memory in a recommendation but a reason for that, and with usage the
-- other way round.
theorem recommend_memory_cases :
    ∃ signals, MemorySignals.ofWindow tuning w = .ok signals ∧
      (value signals.usage = 0 ∧ (∀ s, r.config.get? s .memory = none) ∧
          r.reasons .memory = [.memoryRecordsAreZero] ∨
        value signals.usage ≠ 0 ∧
          (∀ s, r.config.get? s .memory =
            some ⟨signals.request tuning, w.firstUnit [.memoryUsage]⟩) ∧
          r.reasons .memory = []) := by
  obtain ⟨cpu, memory, _, hm, hz, rfl⟩ := sizings_of_recommend ht hw hr
  have ⟨signals, hs, hcases⟩ := sizeMemory_cases hm
  have ⟨hu, hsp⟩ := isNonneg_signals hw hs
  refine ⟨signals, hs, ?_⟩
  rw [beq_iff_value_eq (isNonneg_request ht hw hs).isNumber isNumber_zero, value_zero,
    value_request_eq_zero_iff ht hu hsp] at hcases
  obtain ⟨hzero, rfl⟩ | ⟨hne, rfl⟩ := hcases
  case inl => exact .inl ⟨hzero, recommendation_of_error term w hz .memory rfl⟩
  case inr => exact .inr ⟨hne, recommendation_of_ok term w hz .memory rfl⟩

theorem requested_memory :
    ∃ signals, MemorySignals.ofWindow tuning w = .ok signals ∧ IsNonneg (r.requested .memory) ∧
      value (r.requested .memory) = value (signals.request tuning) := by
  obtain ⟨signals, hs, h⟩ := recommend_memory_cases ht hw hr
  have ⟨hu, hsp⟩ := isNonneg_signals hw hs
  refine ⟨signals, hs, ?_⟩
  obtain ⟨hzero, hnone, _⟩ | ⟨_, hsome, _⟩ := h
  case inl =>
    rw [(value_request_eq_zero_iff ht hu hsp).mpr hzero, Recommendation.requested, hnone .requests]
    exact ⟨isNonneg_zero, value_zero⟩
  case inr =>
    rw [Recommendation.requested, hsome .requests]
    exact ⟨isNonneg_request ht hw hs, rfl⟩

end Recommended

-- Where no signal is lower no request is, and none goes missing.
theorem config_memory_mono_of_signals {v : Window} {r' : Recommendation} {s : Setting} {q : Quantity}
    (ht : tuning.fault? = none) (hv : v.IsSound) (hw : w.IsSound)
    (hr : recommend tuning term v = .ok r) (hr' : recommend tuning term' w = .ok r')
    (hs : MemorySignals.ofWindow tuning v = .ok signals)
    (hs' : MemorySignals.ofWindow tuning w = .ok signals')
    (hle : value signals.usage ≤ value signals'.usage)
    (hle' : value signals.spike ≤ value signals'.spike) (hq : r.config.get? s .memory = some q) :
    ∃ q', r'.config.get? s .memory = some q' ∧ q.amount ≤ q'.amount := by
  have ⟨hu, hsp⟩ := isNonneg_signals hv hs
  have ⟨hu', hsp'⟩ := isNonneg_signals hw hs'
  have hmono := value_request_mono ht hu hsp hu' hsp' hle hle'
  have ⟨_, h, hcases⟩ := recommend_memory_cases ht hv hr
  have ⟨_, h', hcases'⟩ := recommend_memory_cases ht hw hr'
  obtain rfl := Except.ok.inj (hs.symm.trans h)
  obtain rfl := Except.ok.inj (hs'.symm.trans h')
  obtain ⟨_, hnone, _⟩ | ⟨hne, hsome, _⟩ := hcases
  case inl => cases (hnone s).symm.trans hq
  case inr =>
    obtain rfl := Option.some.inj ((hsome s).symm.trans hq)
    obtain ⟨hzero, _, _⟩ | ⟨_, hsome', _⟩ := hcases'
    case inl => exact absurd ((hzero ▸ hle).antisymm hu.nonneg) hne
    case inr =>
      exact ⟨_, hsome' s, (le_iff_value_le (isNonneg_request ht hv hs).isNumber
        (isNonneg_request ht hw hs').isNumber).mpr hmono⟩

def quietHour : Interval :=
  ((Interval.bare 60.0).withMetric .cpuUsage ⟨0.5, 0.75, 0.25, 1.0, "cores"⟩).withMetric .memoryUsage
    ⟨2.0, 3.0, 1.0, 4.0, "MiB"⟩

def loadedHour : Interval :=
  ((Interval.bare 60.0).withMetric .cpuUsage ⟨1.0, 1.5, 0.5, 2.0, "cores"⟩).withMetric .memoryUsage
    ⟨8.0, 9.0, 7.0, 16.0, "MiB"⟩

def loadedWindow : Window :=
  ⟨Engine.hourBefore, default, [(Engine.hourBefore, quietHour), (default, loadedHour)]⟩

theorem isSound_loadedWindow : loadedWindow.IsSound :=
  Window.isSound_iff.mpr (by decide +kernel)

theorem intervals_loadedWindow : loadedWindow.intervals ≠ [] := by
  simp [loadedWindow]

end DurationBased

end ContainerSizing
