import ContainerSizing.Proofs.Binary64.Finite
import ContainerSizing.Proofs.Binary64.Sum
import ContainerSizing.Proofs.Engine.RequestsAndLimits
import ContainerSizing.Proofs.Recommendation

namespace ContainerSizing.CapacityBased

open Binary64 Statistics Demand

-- Some intervals keep their sizing in range.
structure InRange (tuning : Tuning) (es : List (Timestamp × Interval)) : Prop where
  minutes  : (sum (es.map fun e => e.2.minutes)).isFinite
  capacity : ∀ res, nearestRank tuning.capacityPercentile es.length <
    es.countP fun e => (used res e.2).isFinite
  most     : ∀ res, ∀ e ∈ es, ∀ e' ∈ es, peak res e.2 * podRatio res e'.2 > 0.0 →
    (peak res e.2 * podRatio res e'.2).isFinite

variable {tuning : Tuning} {w : Window} {r : Recommendation} {res : Resource} {d : Demand}

section Amounts

variable (hw : w.IsSound)
include hw

theorem isFinite_hours_iff : (w.totalMinutes / 60.0).isFinite ↔ w.totalMinutes.isFinite := by
  have hn : IsNonneg w.totalMinutes := isNonneg_sum <| Window.forall_values hw fun _ _ h =>
    .of_isMeasure (Interval.fault?_eq_none_iff.mp h).left
  have hone : 1 ≤ value 60.0 := by
    rw [← value_one]
    exact value_le_of_le (by decide +kernel)
  exact hn.isFinite_div_iff rfl hone

variable (hd : ofResource tuning w res = .ok d)
include hd

theorem isFinite_capacity_iff :
    d.capacity.isFinite ↔ nearestRank tuning.capacityPercentile w.size <
      w.intervals.countP fun e => (used res e.2).isFinite := by
  obtain ⟨_, hc, _, _, _, _, rfl⟩ := ofResource_eq_ok_iff.mp hd
  exact Window.isFinite_percentile_iff (Window.forall_values hw fun _ _ => isNonneg_used) hc

theorem isFinite_most_iff :
    (d.most > 0.0 → d.most.isFinite) ↔
      ∀ e ∈ w.intervals, ∀ e' ∈ w.intervals, peak res e.2 * podRatio res e'.2 > 0.0 →
        (peak res e.2 * podRatio res e'.2).isFinite := by
  obtain ⟨_, _, most, hm, pods, hp, rfl⟩ := ofResource_eq_ok_iff.mp hd
  refine (isFinite_largest_mul_iff (Window.forall_values hw fun _ _ => isNonneg_peak)
    (Window.forall_values hw fun _ _ => isNonneg_podRatio) hm hp).trans ?_
  simp only [Window.values, List.forall_mem_map]

end Amounts

theorem isMeasure_threshold (ht : tuning.fault? = none) (res : Resource) :
    isMeasure (threshold tuning res) := by
  cases res
  case cpu => exact (Tuning.isMeasured_of_fault? ht).zeroCpu
  case memory =>
    rw [threshold]
    exact isMeasure_iff.mpr ⟨rfl, isNonneg_zero.nonneg⟩

-- An amount that is not finite is above the threshold, so it is placed.
theorem isFinite_config_iff (ht : tuning.fault? = none) (h : recommend tuning w = .ok r) :
    r.config.IsFinite ↔
      ∀ res d, ofResource tuning w res = .ok d → ∀ s, d.amount s > 0.0 → (d.amount s).isFinite := by
  constructor
  case mp =>
    intro hf res d hd s hp
    by_cases hn : d.isNone (threshold tuning res)
    case pos =>
      have hle := amount_le_of_isNone (s := s) hn
      have ⟨hfinite, _⟩ := isMeasure_iff.mp (isMeasure_threshold ht res)
      exact (IsNonneg.of_pos hp).isFinite_of_le hfinite (value_le_of_le hle)
    case neg =>
      obtain ⟨q, hq⟩ := exists_config_of_not_isNone h hd hn hp
      exact (amount_of_config h hd hq).left ▸ hf s res q hq
  case mpr =>
    intro hf s res q hq
    obtain ⟨d, hd⟩ := exists_ofResource h res
    obtain ⟨ha, hp⟩ := amount_of_config h hd hq
    change q.amount.isFinite
    rw [ha]
    exact hf res d hd s hp

theorem isFinite_iff_inRange (ht : tuning.fault? = none) (hw : w.IsSound)
    (h : recommend tuning w = .ok r) : r.IsFinite ↔ InRange tuning w.intervals := by
  obtain ⟨_, _, hhours, _, hvariation⟩ := recommend_bounds h
  have isFinite_capacity {res : Resource} {d : Demand} (hd : ofResource tuning w res = .ok d) :
      (d.capacity > 0.0 → d.capacity.isFinite) ↔ d.capacity.isFinite := by
    refine ⟨fun hf => ?_, fun hf _ => hf⟩
    have hn := isNonneg_capacity hw hd
    by_cases hp : d.capacity > 0.0
    · exact hf hp
    · exact hn.isFinite_of_le rfl (value_le_of_le ((not_pos_iff_le_zero hn.isNumber).mp hp))
  constructor
  case mp =>
    intro hf
    have hc := (isFinite_config_iff ht h).mp hf.config
    refine ⟨(isFinite_hours_iff hw).mp (hhours ▸ hf.hours), fun res => ?_, fun res => ?_⟩
    all_goals obtain ⟨d, hd⟩ := exists_ofResource h res
    · exact (isFinite_capacity_iff hw hd).mp ((isFinite_capacity hd).mp (hc res d hd .requests))
    · exact (isFinite_most_iff hw hd).mp (hc res d hd .limits)
  case mpr =>
    intro hr
    refine ⟨hhours ▸ (isFinite_hours_iff hw).mpr hr.minutes, ?_, hvariation ▸ Allocation.each_empty⟩
    refine (isFinite_config_iff ht h).mpr fun res d hd s => ?_
    cases s
    case requests => exact fun _ => (isFinite_capacity_iff hw hd).mpr (hr.capacity res)
    case limits => exact (isFinite_most_iff hw hd).mpr (hr.most res)

section Moderate

-- Moderate measures stay in range, however many there are of them.

variable {i : Interval} {t : Timestamp}

theorem isUpTo_used (h : i.fault? t = none) (hm : i.IsModerate) (res : Resource) :
    IsUpTo 341 (used res i) := by
  have hv := Interval.isUpTo_value h hm
  cases res
  case cpu => exact (hv .cpuUsage .total).add (hv .cpuThrottle .total) (by norm_num)
  case memory => exact (hv .memoryRss .total).mono (by norm_num)

theorem isUpTo_peak (h : i.fault? t = none) (hm : i.IsModerate) (res : Resource) :
    IsUpTo 341 (peak res i) := by
  have hv := Interval.isUpTo_value h hm
  cases res
  case cpu => exact (hv .cpuUsage .maximum).add (hv .cpuThrottle .maximum) (by norm_num)
  case memory => exact (hv .memoryUsage .maximum).mono (by norm_num)

theorem isUpTo_podRatio (h : i.fault? t = none) (hm : i.IsModerate) (res : Resource) :
    IsUpTo 680 (podRatio res i) := by
  have hn := Interval.isNonneg_value h (podMetric res) .average
  rw [podRatio, ratio]
  split
  case isTrue => exact isUpTo_zero
  case isFalse hz =>
    rw [beq_iff_value_eq hn.isNumber isNumber_zero, value_zero] at hz
    exact (Interval.isUpTo_value h hm (podMetric res) .total).div hn (Interval.isFinite_value h _ _)
      (by norm_num) (hm.average _ hz)

theorem inRange_of_isModerate (hw : w.IsSound) (hne : w.intervals ≠ []) (hn : w.size ≤ 2 ^ 53)
    (hm : ∀ e ∈ w.intervals, e.2.IsModerate) : InRange tuning w.intervals where
  minutes  := by
    have hx : ∀ x ∈ w.intervals.map fun e => e.2.minutes, IsUpTo 340 x :=
      List.forall_mem_map.mpr fun e he => Interval.isUpTo_minutes (hw e.1 e.2 he) (hm e he)
    exact isFinite_sum (by norm_num) hx (by rwa [List.length_map])
  capacity := by
    intro res
    exact nearestRank_lt_countP hne fun e he =>
      (isUpTo_used (hw e.1 e.2 he) (hm e he) res).isFinite (by norm_num)
  most     := by
    intro res e he e' he' _
    have hpeak := isUpTo_peak (hw e.1 e.2 he) (hm e he) res
    have hpods := isUpTo_podRatio (hw e'.1 e'.2 he') (hm e' he') res
    exact (hpeak.mul hpods (by norm_num)).isFinite (by norm_num)

end Moderate

end ContainerSizing.CapacityBased
