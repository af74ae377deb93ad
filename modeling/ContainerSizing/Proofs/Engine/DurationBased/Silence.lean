import ContainerSizing.Proofs.Binary64.Order
import ContainerSizing.Proofs.Engine.DurationBased.Accounting

namespace ContainerSizing

open Binary64 Statistics

namespace Interval

-- The metric was not measured, or its average and its maximum are both zero.
def isSilent (i : Interval) (m : Metric) : Bool :=
  (i.metrics m).all fun a => a.average == 0.0 && a.maximum == 0.0

def isCpuSilent (i : Interval) : Bool :=
  i.isSilent .cpuUsage && i.isSilent .cpuThrottle

end Interval

namespace DurationBased

variable {tuning : Tuning} {w : Window} {t : Timestamp} {i : Interval} {x most : Float}

section Intervals

theorem isSilent_iff (h : i.fault? t = none) (m : Metric) :
    i.isSilent m ↔ value (i.value m .maximum) = 0 ∧ value (i.value m .average) = 0 := by
  have hmax := (Interval.isNonneg_value h m .maximum).isNumber
  have havg := (Interval.isNonneg_value h m .average).isNumber
  rw [← value_zero, ← beq_iff_value_eq hmax isNumber_zero, ← beq_iff_value_eq havg isNumber_zero,
    Interval.isSilent, Interval.value, Interval.value]
  cases i.metrics m
  case none => exact iff_of_true rfl ⟨by decide +kernel, by decide +kernel⟩
  case some a => simp [Aggregate.value, and_comm]

theorem value_peak (h : i.fault? t = none) (m : Metric) :
    value (peak i m) = max (value (i.value m .maximum)) (value (i.value m .average)) := by
  have hmax := Interval.isNonneg_value h m .maximum
  have havg := Interval.isNonneg_value h m .average
  simp only [peak]
  split
  case isTrue => exact value_larger hmax.isNumber havg.isNumber
  case isFalse hp =>
    rw [pos_iff_value_pos hmax.isNumber, not_lt] at hp
    exact (max_eq_right (hp.trans havg.nonneg)).symm

theorem value_peak_eq_zero_iff (h : i.fault? t = none) (m : Metric) :
    value (peak i m) = 0 ↔ i.isSilent m := by
  have hmax := (Interval.isNonneg_value h m .maximum).nonneg
  have havg := (Interval.isNonneg_value h m .average).nonneg
  rw [isSilent_iff h, value_peak h]
  constructor
  case mp =>
    intro hz
    have ⟨h₁, h₂⟩ := max_le_iff.mp hz.le
    exact ⟨h₁.antisymm hmax, h₂.antisymm havg⟩
  case mpr =>
    intro ⟨h₁, h₂⟩
    rw [h₁, h₂, max_self]

theorem isNonneg_peakTotal (h : i.fault? t = none) : IsNonneg (peakTotal i) :=
  (isNonneg_peak h _).add (isNonneg_peak h _)

theorem value_peakTotal_eq_zero_iff (h : i.fault? t = none) :
    value (peakTotal i) = 0 ↔ i.isCpuSilent := by
  rw [peakTotal, (isNonneg_peak h _).value_add_eq_zero_iff (isNonneg_peak h _),
    value_peak_eq_zero_iff h, value_peak_eq_zero_iff h, Interval.isCpuSilent, Bool.and_eq_true]

theorem value_peakTotal_le (h : i.fault? t = none) :
    value (peakTotal i) ≤ value (cpuCandidate tuning i) := by
  simp only [cpuCandidate]
  split
  · exact le_rfl
  · exact value_le_larger (isNonneg_peakTotal h).isNumber

theorem cpuCandidate_eq (h : peakTotal i < tuning.oneCore) : cpuCandidate tuning i = peakTotal i :=
  if_pos h

-- A candidate is on the same side of one core as the peak.
theorem cpuCandidate_lt_iff (hc : IsNumber tuning.oneCore) (h : i.fault? t = none) :
    cpuCandidate tuning i < tuning.oneCore ↔ peakTotal i < tuning.oneCore := by
  constructor
  case mp =>
    rw [lt_iff_value_lt (isNonneg_cpuCandidate h).isNumber hc,
      lt_iff_value_lt (isNonneg_peakTotal h).isNumber hc]
    exact (value_peakTotal_le h).trans_lt
  case mpr => exact fun hlt => (cpuCandidate_eq hlt).symm ▸ hlt

theorem value_cpuCandidate_eq_zero_iff (hc : IsNumber tuning.oneCore) (hp : 0 < value tuning.oneCore)
    (h : i.fault? t = none) : value (cpuCandidate tuning i) = 0 ↔ i.isCpuSilent := by
  have hn := isNonneg_peakTotal h
  rw [← value_peakTotal_eq_zero_iff h]
  constructor
  case mp =>
    intro hz
    exact (hz ▸ value_peakTotal_le h).antisymm hn.nonneg
  case mpr =>
    intro hz
    rwa [cpuCandidate_eq ((lt_iff_value_lt hn.isNumber hc).mpr (hz ▸ hp))]

end Intervals

section Windows

variable (hw : w.IsSound) (hc : IsNumber tuning.oneCore)
include hw hc

theorem most_lt_iff (hm : largest (w.values (cpuCandidate tuning)) = .ok most) :
    most < tuning.oneCore ↔ ∀ e ∈ w.intervals, peakTotal e.2 < tuning.oneCore := by
  rw [largest_lt_iff (isNumber_candidates hw) hm, Window.values, List.forall_mem_map]
  apply forall₂_congr
  intro e he
  exact cpuCandidate_lt_iff hc (hw e.1 e.2 he)

variable (hp : 0 < value tuning.oneCore)
include hp

theorem most_eq_zero_iff (hm : largest (w.values (cpuCandidate tuning)) = .ok most) :
    value most = 0 ↔ ∀ e ∈ w.intervals, e.2.isCpuSilent := by
  have hn : ∀ y ∈ w.values (cpuCandidate tuning), IsNonneg y := isNonneg_candidates hw
  rw [← (hn most (mem_of_largest hm)).le_zero_iff,
    largest_le_iff (isNumber_candidates hw) hm, Window.values, List.forall_mem_map]
  apply forall₂_congr
  intro e he
  rw [(isNonneg_cpuCandidate (hw e.1 e.2 he)).le_zero_iff]
  exact value_cpuCandidate_eq_zero_iff hc hp (hw e.1 e.2 he)

theorem percentile_eq_zero_iff
    (h : percentile tuning.cpuPercentile (w.values (cpuCandidate tuning)) = .ok x) :
    value x = 0 ↔
      nearestRank tuning.cpuPercentile w.size < w.intervals.countP (·.2.isCpuSilent) := by
  have hn : ∀ y ∈ w.values (cpuCandidate tuning), IsNonneg y := isNonneg_candidates hw
  rw [← (hn x (mem_of_percentile h)).le_zero_iff,
    Window.percentile_le_iff (isNumber_candidates hw) h]
  have hcount : (w.intervals.countP fun e => cpuCandidate tuning e.2 ≤ 0.0) =
      w.intervals.countP (·.2.isCpuSilent) := by
    apply List.countP_congr
    intro e he
    rw [decide_eq_true_iff, (isNonneg_cpuCandidate (hw e.1 e.2 he)).le_zero_iff]
    exact value_cpuCandidate_eq_zero_iff hc hp (hw e.1 e.2 he)
  rw [hcount]

-- Below one core a window counts as zero when all its intervals are silent; from one core on, when
-- the silent ones reach up to the percentile.
theorem cpuUsage_eq_zero_iff (h : cpuUsage tuning w = .ok x) :
    value x = 0 ↔
      (∀ e ∈ w.intervals, e.2.isCpuSilent) ∨
      (∃ e ∈ w.intervals, ¬peakTotal e.2 < tuning.oneCore) ∧
        nearestRank tuning.cpuPercentile w.size < w.intervals.countP (·.2.isCpuSilent) := by
  obtain ⟨most, hm, h⟩ := cpuUsage_cases h
  have hcore : (∃ e ∈ w.intervals, ¬peakTotal e.2 < tuning.oneCore) ↔ ¬most < tuning.oneCore := by
    rw [most_lt_iff hw hc hm]
    push Not
    rfl
  rw [hcore, ← most_eq_zero_iff hw hc hp hm]
  obtain ⟨hlt, rfl⟩ | ⟨hlt, h⟩ := h
  case inl => simp [hlt]
  case inr =>
    have hne : value most ≠ 0 := by
      intro hz
      have hn := isNonneg_candidates hw most (mem_of_largest hm)
      exact hlt ((lt_iff_value_lt hn.isNumber hc).mpr (hz ▸ hp))
    rw [percentile_eq_zero_iff hw hc hp h]
    simp [hne, hlt]

end Windows

section Standard

-- The standard thresholds: one core, and nothing.

theorem value_oneCore : value (default : Tuning).oneCore = 1 :=
  value_one

theorem isNumber_oneCore : IsNumber (default : Tuning).oneCore :=
  isNumber_of_isFinite rfl

variable {z : Sizing} {term : Term} {r : Recommendation}

theorem sizeCpu_eq_zero_iff (hw : w.IsSound) (h : sizeCpu default w = .ok z) :
    z = .error .cpuRecordsAreZero ↔ ∃ usage, cpuUsage default w = .ok usage ∧ value usage = 0 := by
  obtain ⟨usage, hu, h⟩ := sizeCpu_cases h
  have hn := isNonneg_cpuUsage hw hu
  have hz : (usage == (default : Tuning).zeroCpu) ↔ value usage = 0 := by
    rw [show (default : Tuning).zeroCpu = 0.0 from rfl, beq_iff_value_eq hn.isNumber isNumber_zero,
      value_zero]
  rw [hu]
  simp only [Except.ok.injEq, exists_eq_left', ← hz]
  obtain ⟨hzero, rfl⟩ | ⟨hzero, _, rfl⟩ | ⟨hzero, _, rfl⟩ := h <;> simp [hzero]

theorem has_cpuRecordsAreZero_iff (hw : w.IsSound) (h : recommend default term w = .ok r) :
    r.has .cpuRecordsAreZero ↔
      (∀ e ∈ w.intervals, e.2.isCpuSilent) ∨
      (∃ e ∈ w.intervals, peakTotal e.2 ≥ 1.0) ∧
        nearestRank 98.0 w.size < w.intervals.countP (·.2.isCpuSilent) := by
  have ⟨cpu, memory, hc, _, hz, h⟩ := sizings_of_recommend Tuning.fault?_standard hw h
  have ⟨usage, hu, _⟩ := bind_eq_ok_iff.mp hc
  have hpeak : (∃ e ∈ w.intervals, peakTotal e.2 ≥ 1.0) ↔
      ∃ e ∈ w.intervals, ¬peakTotal e.2 < (default : Tuning).oneCore := by
    apply exists_congr
    intro e
    apply and_congr_right
    intro he
    exact (Binary64.not_lt (isNonneg_peakTotal (hw e.1 e.2 he)).isNumber isNumber_oneCore).symm
  have hsize : cpu = .error .cpuRecordsAreZero ↔ value usage = 0 := by
    rw [sizeCpu_eq_zero_iff hw hc, hu]
    simp
  rw [← h, has_reason_iff hz .cpu (by decide), hpeak]
  exact hsize.trans (cpuUsage_eq_zero_iff hw isNumber_oneCore (value_oneCore ▸ one_pos) hu)

end Standard

end DurationBased

namespace Engine

open DurationBased

-- A window with a busy interval counts as zero if so many others are silent that the percentile falls
-- on one of them.
theorem recommend_cpuRecordsAreZero_iff {engine : Engine} {series : Series} {stop : Timestamp}
    {label : String} {r : Recommendation} (hk : engine.kind = .durationBased)
    (ht : engine.tuning = default) (hr : (engine.recommend series stop).get? label = some r)
    (hs : r.start.isSome) :
    ∃ start, r.start = some start ∧
      (r.has .cpuRecordsAreZero ↔
        (∀ e ∈ series.range start stop, e.2.isCpuSilent) ∨
        (∃ e ∈ series.range start stop, peakTotal e.2 ≥ 1.0) ∧
          nearestRank 98.0 (series.range start stop).length <
            (series.range start stop).countP (·.2.isCpuSilent)) := by
  have ⟨term, _, _, ho⟩ := exists_outcome hr
  have he := (evaluate_durationBased hk).symm.trans (evaluate_of_outcome ho hs)
  have ⟨w, _, hw, hr⟩ := exists_window_of_evaluate he hs
  refine ⟨w.start, (recommend_bounds hr).left, ?_⟩
  rw [← Window.intervals_of_ofSeries hw]
  exact has_cpuRecordsAreZero_iff (Window.isSound_of_ofSeries hw) (ht ▸ hr)

-- One busy minute at the end of half an hour in which nothing else is measured.
def busyMinute : Interval :=
  (Interval.bare 1.0).withMetric .cpuUsage ⟨2.0, 2.0, 2.0, 2.0, "cores"⟩

def burstSeries : Series :=
  SortedMap.ofList <| (List.range 30).filterMap fun n =>
    (Timestamp.ofParts? (-60 * n) 0).map fun t => (t, if n = 0 then busyMinute else .bare 1.0)

def halfHourBefore : Timestamp :=
  ⟨-1800, 0, by decide +kernel⟩

theorem start?_burstSeries :
    (Walk.ofTerm burstSeries ⟨"short_term", 1, 30.0⟩ default).start? = .ok (some halfHourBefore) :=
  eq_ok_of_toOption (by decide +kernel)

theorem fault?_burstSeries : ∀ t i, (t, i) ∈ burstSeries.entries → i.fault? t = none := by
  have h : burstSeries.entries.all fun e => (e.2.fault? e.1).isNone := by decide +kernel
  intro t i hm
  exact Option.isNone_iff_eq_none.mp (List.all_eq_true.mp h (t, i) hm)

theorem exists_busy_burstSeries :
    ∃ e ∈ burstSeries.range halfHourBefore default, peakTotal e.2 ≥ 1.0 := by
  have h : (burstSeries.range halfHourBefore default).any fun e => peakTotal e.2 ≥ 1.0 := by
    decide +kernel
  have ⟨e, he, hp⟩ := List.any_eq_true.mp h
  exact ⟨e, he, of_decide_eq_true hp⟩

theorem nearestRank_lt_silent_burstSeries :
    nearestRank 98.0 (burstSeries.range halfHourBefore default).length <
      (burstSeries.range halfHourBefore default).countP (·.2.isCpuSilent) := by
  decide +kernel

theorem recommend_burstSeries :
    ∃ w r, ((standard .durationBased).recommend burstSeries default).get? "short_term" = some r ∧
      r.start = some halfHourBefore ∧ w.IsSound ∧
      w.intervals = burstSeries.range halfHourBefore default ∧
      DurationBased.recommend default ⟨"short_term", 1, 30.0⟩ w = .ok r := by
  have ⟨w, r, hw, hr, he⟩ := exists_evaluate_of_start? (standard .durationBased).tuning
    start?_burstSeries fun t i hm _ _ => fault?_burstSeries t i hm
  have hget : ((standard .durationBased).recommend burstSeries default).get? "short_term" = some r :=
    (get?_recommend (hasDistinctLabels_standard .durationBased)
      (shortTerm_mem_standard .durationBased)).trans (congrArg some (outcome_of_ok he))
  have hstart := (recommend_bounds hr).left
  rw [(Window.bounds_of_ofSeries hw).left] at hstart
  exact ⟨w, r, hget, hstart, Window.isSound_of_ofSeries hw, Window.intervals_of_ofSeries hw, hr⟩

theorem recommend_cpuRecordsAreZero_iff_burstSeries :
    (standard .durationBased).kind = .durationBased ∧ (standard .durationBased).tuning = default ∧
    ∃ r, ((standard .durationBased).recommend burstSeries default).get? "short_term" = some r ∧
      r.start = some halfHourBefore ∧ r.has .cpuRecordsAreZero := by
  have ⟨_, r, hr, hs, _⟩ := recommend_burstSeries
  have ⟨start, hstart, hiff⟩ := recommend_cpuRecordsAreZero_iff rfl rfl hr (hs ▸ rfl)
  obtain rfl := Option.some.inj (hs.symm.trans hstart)
  exact ⟨rfl, rfl, r, hr, hs, hiff.mpr (.inr ⟨exists_busy_burstSeries, nearestRank_lt_silent_burstSeries⟩)⟩

-- The busy minute lies beyond the percentile.
theorem not_forall_cpuRecordsAreZero_iff_silent :
    ¬∀ (engine : Engine) (series : Series) (stop start : Timestamp) (label : String)
      (r : Recommendation), engine.kind = .durationBased → engine.tuning = default →
      (engine.recommend series stop).get? label = some r → r.start = some start →
      (r.has .cpuRecordsAreZero ↔ ∀ e ∈ series.range start stop, e.2.isCpuSilent) := by
  intro h
  have ⟨w, r, hr, hs, hw, hi, hrec⟩ := recommend_burstSeries
  have hiff := h _ _ _ _ _ r rfl rfl hr hs
  rw [has_cpuRecordsAreZero_iff hw hrec, Window.size, hi] at hiff
  have hsilent := hiff.mp (.inr ⟨exists_busy_burstSeries, nearestRank_lt_silent_burstSeries⟩)
  have hnot : ¬(burstSeries.range halfHourBefore default).all (·.2.isCpuSilent) := by decide +kernel
  exact hnot (List.all_eq_true.mpr hsilent)

end Engine

end ContainerSizing
