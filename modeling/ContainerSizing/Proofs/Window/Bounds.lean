import ContainerSizing.Proofs.Engine.DurationBased.Outcome

namespace ContainerSizing

namespace Series

variable {series : Series} {start stop t : Timestamp} {i : Interval}

theorem pairwise_range (series : Series) (start stop : Timestamp) :
    (series.range start stop).Pairwise fun earlier later => earlier.1 < later.1 :=
  series.sorted.filter _

theorem range_of_lt (h : stop < start) : series.range start stop = series.range start start := by
  simp only [range, if_pos h, ite_self]

-- Members of a range, whatever the order of its ends.
theorem mem_range_iff_or :
    (t, i) ∈ series.range start stop ↔
      (t, i) ∈ series.entries ∧ start ≤ t ∧ (t ≤ stop ∨ t = start) := by
  by_cases h : stop < start
  case pos =>
    rw [range_of_lt h, mem_range_iff Timestamp.le_rfl]
    refine and_congr_right fun _ => and_congr_right fun hs => ?_
    constructor
    · exact fun ht => .inr (Timestamp.le_antisymm ht hs)
    · rintro (ht | rfl)
      · exact Timestamp.le_trans ht (Timestamp.le_of_lt h)
      · exact Timestamp.le_rfl
  case neg =>
    have hle := Timestamp.not_lt_iff_le.mp h
    rw [mem_range_iff hle]
    refine and_congr_right fun _ => and_congr_right fun _ => (or_iff_left_of_imp ?_).symm
    rintro rfl
    exact hle

-- A range in the wrong order is the entry at its start, if there is one.
theorem range_eq_toList (h : stop < start) :
    series.range start stop = ((series.get? start).map (start, ·)).toList := by
  apply SortedMap.eq_of_mem_iff (series.pairwise_range start stop)
  case hs' => cases series.get? start <;> simp
  case h =>
    rintro ⟨t, i⟩
    rw [mem_range_iff_or, SortedMap.mem_entries_iff, Option.mem_toList, Option.map_eq_some_iff]
    constructor
    case mp =>
      rintro ⟨hi, hs, ht | rfl⟩
      · exact absurd (Timestamp.le_trans hs ht) (Timestamp.not_le_of_lt h)
      · exact ⟨i, hi, rfl⟩
    case mpr =>
      rintro ⟨i, hi, ⟨⟩⟩
      exact ⟨hi, Timestamp.le_rfl, .inr rfl⟩

theorem range_eq_nil_iff_of_lt (h : stop < start) :
    series.range start stop = [] ↔ series.get? start = none := by
  rw [range_eq_toList h, Option.toList_eq_nil_iff, Option.map_eq_none_iff]

-- The range is what ends in `[start, stop]`.
def RangeIsExact (series : Series) (start stop : Timestamp) : Prop :=
  ∀ t i, (t, i) ∈ series.range start stop ↔ (t, i) ∈ series.entries ∧ start ≤ t ∧ t ≤ stop

theorem rangeIsExact_iff :
    series.RangeIsExact start stop ↔ start ≤ stop ∨ series.get? start = none := by
  by_cases h : stop < start
  case neg =>
    have hle := Timestamp.not_lt_iff_le.mp h
    exact iff_of_true (fun _ _ => mem_range_iff hle) (.inl hle)
  case pos =>
    have hle : ¬start ≤ stop := Timestamp.not_le_of_lt h
    rw [or_iff_right hle, ← range_eq_nil_iff_of_lt h, List.eq_nil_iff_forall_not_mem]
    have hnot (t : Timestamp) (i : Interval) :
        ¬((t, i) ∈ series.entries ∧ start ≤ t ∧ t ≤ stop) :=
      fun ⟨_, hs, ht⟩ => hle (Timestamp.le_trans hs ht)
    exact ⟨fun hr e he => hnot e.1 e.2 ((hr e.1 e.2).mp he),
      fun hn t i => iff_of_false (hn (t, i)) (hnot t i)⟩

end Series

namespace Window

variable {series : Series} {start stop : Timestamp} {w : Window}

-- What stands for a window in the wrong order: the one interval that ends at its start.
theorem ofSeries_of_lt (h : stop < start) :
    ofSeries series start stop =
      (series.get? start).elim (.error (.emptyWindow start stop)) fun i =>
        (i.fault? start).elim (.ok ⟨start, stop, [(start, i)]⟩) .error := by
  simp only [ofSeries, Series.range_eq_toList h]
  cases series.get? start
  case none => rfl
  case some i =>
    simp only [Option.map_some, Option.toList_some, List.findSome?_singleton, Option.elim_some]
    cases i.fault? start <;> rfl

-- A window lies in its bounds as long as they are in order. In the wrong order it should be empty, and
-- it is unless an interval ends exactly at the start.
theorem ofSeries_bounds (series : Series) (start stop : Timestamp) :
    (series.range start stop).Pairwise (fun earlier later => earlier.1 < later.1) ∧
    (series.RangeIsExact start stop ↔ start ≤ stop ∨ series.get? start = none) ∧
    (∀ w, ofSeries series start stop = .ok w →
      w.start = start ∧ w.stop = stop ∧ w.intervals = series.range start stop ∧ w.intervals ≠ []) ∧
    (stop < start →
      series.range start stop = ((series.get? start).map (start, ·)).toList ∧
      ofSeries series start stop =
        (series.get? start).elim (.error (.emptyWindow start stop)) fun i =>
          (i.fault? start).elim (.ok ⟨start, stop, [(start, i)]⟩) .error) := by
  refine ⟨series.pairwise_range start stop, Series.rangeIsExact_iff, ?window, ?inverted⟩
  case window =>
    intro w hw
    have ⟨hstart, hstop⟩ := bounds_of_ofSeries hw
    exact ⟨hstart, hstop, intervals_of_ofSeries hw, intervals_ne_nil hw⟩
  case inverted => exact fun h => ⟨Series.range_eq_toList h, ofSeries_of_lt h⟩

section Inverted

open Engine (measuredSeries measuredHour hourBefore)

-- The only hour ends where this range starts, an hour behind the end of the range.

theorem hourBefore_lt : hourBefore < default := by
  decide +kernel

theorem get?_measuredSeries : measuredSeries.get? default = some measuredHour :=
  SortedMap.mem_entries_iff.mp (List.mem_singleton_self _)

theorem fault?_measuredHour : measuredHour.fault? default = none := by
  decide +kernel

theorem ofSeries_bounds_measuredSeries :
    hourBefore < default ∧ ¬measuredSeries.RangeIsExact default hourBefore ∧
    measuredSeries.range default hourBefore = [(default, measuredHour)] ∧
    ofSeries measuredSeries default hourBefore =
      .ok ⟨default, hourBefore, [(default, measuredHour)]⟩ := by
  have ⟨_, hexact, _, hinverted⟩ := ofSeries_bounds measuredSeries default hourBefore
  have ⟨hrange, hwindow⟩ := hinverted hourBefore_lt
  rw [get?_measuredSeries] at hexact hrange hwindow
  refine ⟨hourBefore_lt, ?_, hrange, ?_⟩
  · simpa [Timestamp.not_le_of_lt hourBefore_lt] using hexact
  · rw [hwindow, Option.elim_some, fault?_measuredHour]
    rfl

theorem not_forall_inverted_isEmpty :
    ¬(∀ (series : Series) (start stop : Timestamp), series.RangeIsExact start stop) ∧
    ¬(∀ (series : Series) (start stop : Timestamp) (w : Window),
      ofSeries series start stop = .ok w → w.start ≤ w.stop) ∧
    ¬∀ (series : Series) (start stop : Timestamp), stop < start →
      ofSeries series start stop = .error (.emptyWindow start stop) := by
  have hle : ¬default ≤ hourBefore := Timestamp.not_le_of_lt hourBefore_lt
  have hwindow : ofSeries measuredSeries default hourBefore = _ := ofSeries_of_lt hourBefore_lt
  rw [get?_measuredSeries, Option.elim_some, fault?_measuredHour, Option.elim_none] at hwindow
  refine ⟨?exact, ?bounds, ?empty⟩
  case exact =>
    intro h
    rcases Series.rangeIsExact_iff.mp (h measuredSeries default hourBefore) with h | h
    · exact hle h
    · rw [get?_measuredSeries] at h
      cases h
  case bounds => exact fun h => hle (h _ _ _ _ hwindow)
  case empty =>
    intro h
    rw [h _ _ _ hourBefore_lt] at hwindow
    cases hwindow

end Inverted

end Window

end ContainerSizing
