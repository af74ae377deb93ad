import ContainerSizing.Proofs.Engine.DurationBased.Headroom
import ContainerSizing.Proofs.Engine.DurationBased.Silence

namespace ContainerSizing

open Binary64 Statistics

namespace DurationBased

variable {tuning : Tuning} {w : Window} {t : Timestamp} {i : Interval} {term : Term}
variable {r : Recommendation} {q : Quantity} {x : Float}

section Intervals

theorem value_average_le_peakTotal (h : i.fault? t = none) :
    value (i.value .cpuUsage .average) ≤ value (peakTotal i) := by
  calc value (i.value .cpuUsage .average)
    _ ≤ value (peak i .cpuUsage) := (le_max_right _ _).trans_eq (value_peak h _).symm
    _ ≤ value (peakTotal i) := (isNonneg_peak h _).value_le_add_left (isNonneg_peak h _)

theorem lt_cpuCandidate (h : i.fault? t = none) (hlt : x < i.value .cpuUsage .average) :
    x < cpuCandidate tuning i := by
  have ⟨hx, ha⟩ := isNumber_of_lt hlt
  have hlt := (lt_iff_value_lt hx ha).mp hlt
  have hle : value (i.value .cpuUsage .average) ≤ value (cpuCandidate tuning i) :=
    (value_average_le_peakTotal h).trans (value_peakTotal_le h)
  exact (lt_iff_value_lt hx (isNonneg_cpuCandidate h).isNumber).mpr (hlt.trans_le hle)

end Intervals

section Windows

variable (hw : w.IsSound)
include hw

-- A window in which every interval is busy on average has a CPU request.
theorem sizeCpu_of_busy {z : Sizing} (hz : tuning.zeroCpu ≤ tuning.oneMillicore)
    (hb : ∀ e ∈ w.intervals, e.2.value .cpuUsage .average > tuning.oneMillicore)
    (h : sizeCpu tuning w = .ok z) : ∃ q, z = .ok q ∧ q.amount > tuning.oneMillicore := by
  have ⟨usage, hu, hcases⟩ := sizeCpu_cases h
  have hlt : tuning.oneMillicore < usage := by
    obtain ⟨e, he, rfl⟩ := List.mem_map.mp (mem_of_cpuUsage hu)
    exact lt_cpuCandidate (hw e.1 e.2 he) (hb e he)
  have ⟨hone, hn⟩ := isNumber_of_lt hlt
  have hvalue := (lt_iff_value_lt hone hn).mp hlt
  obtain ⟨hzero, rfl⟩ | ⟨_, hidle, rfl⟩ | ⟨_, _, rfl⟩ := hcases
  case inl =>
    rw [beq_iff_value_eq hn (isNumber_of_le hz).left] at hzero
    exact absurd (hzero.trans_le (value_le_of_le hz)) hvalue.not_ge
  case inr.inl => exact absurd (value_le_of_le hidle) hvalue.not_ge
  case inr.inr => exact ⟨_, rfl, hlt⟩

-- A window in which no interval has a peak above one millicore has none, and its highest peak tells
-- why.
theorem sizeCpu_of_idle {z : Sizing} (hc : tuning.oneMillicore < tuning.oneCore)
    (hi : ∀ e ∈ w.intervals, peakTotal e.2 ≤ tuning.oneMillicore) (h : sizeCpu tuning w = .ok z) :
    ∃ most, largest (w.values peakTotal) = .ok most ∧
      z = .error (if most == tuning.zeroCpu then .cpuRecordsAreZero else .cpuRecordsAreIdle) := by
  have ⟨usage, hu, hcases⟩ := sizeCpu_cases h
  have ⟨most, hm, hmost⟩ := cpuUsage_cases hu
  have hcore : ∀ e ∈ w.intervals, peakTotal e.2 < tuning.oneCore :=
    fun e he => Binary64.lt_of_le_of_lt (hi e he) hc
  have hvalues : w.values (cpuCandidate tuning) = w.values peakTotal :=
    List.map_congr_left fun e he => cpuCandidate_eq (hcore e he)
  have hlt := (most_lt_iff hw (isNumber_of_lt hc).right hm).mpr hcore
  obtain ⟨_, rfl⟩ | ⟨hnot, _⟩ := hmost
  case inr => exact absurd hlt hnot
  case inl =>
    rw [hvalues] at hm
    obtain ⟨e, he, hpeak⟩ := List.mem_map.mp (mem_of_largest hm)
    refine ⟨usage, hm, ?_⟩
    obtain ⟨hzero, rfl⟩ | ⟨hzero, _, rfl⟩ | ⟨_, hidle, _⟩ := hcases
    · rw [if_pos hzero]
    · rw [if_neg hzero]
    · exact absurd (hpeak ▸ hi e he) hidle

end Windows

theorem recommend_cpu_threshold (term : Term) (ht : tuning.fault? = none)
    (hz : tuning.zeroCpu ≤ tuning.oneMillicore) (hc : tuning.oneMillicore < tuning.oneCore)
    (hw : w.IsSound) (hne : w.intervals ≠ []) :
    ∃ z r, sizeCpu tuning w = .ok z ∧ recommend tuning term w = .ok r ∧
      ((∀ e ∈ w.intervals, e.2.value .cpuUsage .average > tuning.oneMillicore) →
        ∃ q, z = .ok q ∧ q.amount > tuning.oneMillicore ∧
          r.config.get? .requests .cpu = some q ∧ r.reasons .cpu = []) ∧
      ((∀ e ∈ w.intervals, peakTotal e.2 ≤ tuning.oneMillicore) →
        ∃ most kind, largest (w.values peakTotal) = .ok most ∧
          kind = (if most == tuning.zeroCpu then NotificationKind.cpuRecordsAreZero
            else .cpuRecordsAreIdle) ∧
          z = .error kind ∧ r.config.get? .requests .cpu = none ∧ r.reasons .cpu = [kind]) := by
  have ⟨r, hr⟩ := exists_recommend tuning term hne
  obtain ⟨z, memory, hs, _, hsizings, rfl⟩ := sizings_of_recommend ht hw hr
  refine ⟨z, _, hs, hr, ?busy, ?idle⟩
  case busy =>
    intro hb
    obtain ⟨q, rfl, hq⟩ := sizeCpu_of_busy hw hz hb hs
    have ⟨hconfig, hreasons⟩ := recommendation_of_ok term w hsizings .cpu rfl
    exact ⟨q, rfl, hq, hconfig _, hreasons⟩
  case idle =>
    intro hi
    obtain ⟨most, hmost, rfl⟩ := sizeCpu_of_idle hw hc hi hs
    have ⟨hconfig, hreasons⟩ := recommendation_of_error term w hsizings .cpu rfl
    exact ⟨most, _, hmost, rfl, rfl, hconfig _, hreasons⟩

-- An hour of next to no usage, after one of none.
def idleWindow : Window :=
  ⟨Engine.hourBefore, default, [(Engine.hourBefore, .bare 60.0), (default,
    (Interval.bare 60.0).withMetric .cpuUsage ⟨0.0005, 0.001, 0.0, 0.0005, "cores"⟩)]⟩

theorem isSound_idleWindow : idleWindow.IsSound :=
  Window.isSound_iff.mpr (by decide +kernel)

theorem recommend_cpu_threshold_idleWindow :
    (default : Tuning).fault? = none ∧ (default : Tuning).zeroCpu ≤ (default : Tuning).oneMillicore ∧
    (default : Tuning).oneMillicore < (default : Tuning).oneCore ∧
    loadedWindow.IsSound ∧ loadedWindow.intervals ≠ [] ∧
    idleWindow.IsSound ∧ idleWindow.intervals ≠ [] ∧
    (∃ r q, recommend default ⟨"short_term", 1, 30.0⟩ loadedWindow = .ok r ∧
      r.config.get? .requests .cpu = some q ∧ q.amount > 0.001 ∧ r.reasons .cpu = []) ∧
    ∃ r, recommend default ⟨"short_term", 1, 30.0⟩ idleWindow = .ok r ∧
      r.config.get? .requests .cpu = none ∧ r.reasons .cpu = [.cpuRecordsAreIdle] := by
  have hz : (default : Tuning).zeroCpu ≤ (default : Tuning).oneMillicore := by decide +kernel
  have hc : (default : Tuning).oneMillicore < (default : Tuning).oneCore := by decide +kernel
  have hne : idleWindow.intervals ≠ [] := by simp [idleWindow]
  have ⟨_, r, _, hr, hbusy, _⟩ := recommend_cpu_threshold ⟨"short_term", 1, 30.0⟩
    Tuning.fault?_standard hz hc isSound_loadedWindow intervals_loadedWindow
  have ⟨_, r', _, hr', _, hidle⟩ := recommend_cpu_threshold ⟨"short_term", 1, 30.0⟩
    Tuning.fault?_standard hz hc isSound_idleWindow hne
  have ⟨q, _, hq, hconfig, hreasons⟩ := hbusy (by decide +kernel)
  have ⟨most, kind, hm, hkind, _, hconfig', hreasons'⟩ := hidle (by decide +kernel)
  have hmost : largest (idleWindow.values peakTotal) = .ok 0.001 :=
    eq_ok_of_toOption (by decide +kernel)
  obtain rfl := Except.ok.inj (hm.symm.trans hmost)
  rw [if_neg (by decide +kernel)] at hkind
  exact ⟨Tuning.fault?_standard, hz, hc, isSound_loadedWindow, intervals_loadedWindow,
    isSound_idleWindow, hne, ⟨r, q, hr, hconfig, hq, hreasons⟩, r', hr', hconfig', hkind ▸ hreasons'⟩

end DurationBased

end ContainerSizing
