import ContainerSizing.Proofs.Binary64.Finite
import ContainerSizing.Proofs.SortedMap
import ContainerSizing.Proofs.Timestamp.Order
import ContainerSizing.Series.Basic

namespace ContainerSizing

open Binary64

theorem Statistic.mem_all (s : Statistic) : s ∈ Statistic.all := by
  cases s <;> decide

namespace Interval

variable {i : Interval} {t s : Timestamp}

theorem start_eq_ok_iff : i.start t = .ok s ↔ t.minutesBefore? i.minutes = some s := by
  rw [start]
  cases t.minutesBefore? i.minutes <;> simp

theorem aggregateFault?_eq_none_iff {m : Metric} {a : Aggregate} :
    aggregateFault? t m a = none ↔ ∀ s, isMeasure (a.value s) := by
  simp [aggregateFault?, List.findSome?_eq_none_iff, Statistic.mem_all]

-- An interval is sound when its duration and all that was measured in it are measures.
theorem fault?_eq_none_iff :
    i.fault? t = none ↔
      isMeasure i.minutes ∧ ∀ m a, i.metrics m = some a → ∀ s, isMeasure (a.value s) := by
  rw [fault?]
  split
  case isFalse h => simp [h]
  case isTrue h =>
    simp only [h, true_and, List.findSome?_eq_none_iff, Metric.mem_all, forall_const]
    simp [Option.bind_eq_none_iff, aggregateFault?_eq_none_iff]

theorem fault?_cases {error : EvaluationError} (h : i.fault? t = some error) :
    error = .invalidDuration t i.minutes ∨ ∃ m s x, error = .invalidAggregate t m s x := by
  rw [fault?] at h
  split at h
  case isFalse =>
    injection h with h
    exact .inl h.symm
  case isTrue =>
    obtain ⟨m, _, h⟩ := List.exists_of_findSome?_eq_some h
    obtain ⟨a, _, h⟩ := Option.bind_eq_some_iff.mp h
    obtain ⟨s, _, h⟩ := List.exists_of_findSome?_eq_some h
    split at h
    · cases h
    · injection h with h
      exact .inr ⟨m, s, a.value s, h.symm⟩

theorem isNonneg_value (h : i.fault? t = none) (m : Metric) (s : Statistic) :
    IsNonneg (i.value m s) := by
  have ⟨_, hm⟩ := fault?_eq_none_iff.mp h
  rw [value]
  split
  case h_1 a ha => exact .of_isMeasure (hm m a ha s)
  case h_2 => exact isNonneg_zero

theorem isFinite_value (h : i.fault? t = none) (m : Metric) (s : Statistic) :
    (i.value m s).isFinite := by
  have ⟨_, hm⟩ := fault?_eq_none_iff.mp h
  rw [value]
  split
  case h_1 a ha => exact (isMeasure_iff.mp (hm m a ha s)).left
  case h_2 => rfl

-- What was measured is neither huge nor next to nothing.
structure IsModerate (i : Interval) : Prop where
  minutes : Binary64.value i.minutes ≤ 2 ^ 340
  value   : ∀ m s, Binary64.value (i.value m s) ≤ 2 ^ 340
  average : ∀ m, Binary64.value (i.value m .average) ≠ 0 →
    1 ≤ Binary64.value (i.value m .average) * 2 ^ 340

theorem isUpTo_minutes (h : i.fault? t = none) (hm : i.IsModerate) : IsUpTo 340 i.minutes :=
  ⟨.of_isMeasure (fault?_eq_none_iff.mp h).left, hm.minutes⟩

theorem isUpTo_value (h : i.fault? t = none) (hm : i.IsModerate) (m : Metric) (s : Statistic) :
    IsUpTo 340 (i.value m s) :=
  ⟨isNonneg_value h m s, hm.value m s⟩

end Interval

namespace Series

variable {series : Series} {start stop t : Timestamp} {i : Interval}

section Ends

theorem pairwise_keys (series : Series) : series.keys.Pairwise (· < ·) :=
  List.pairwise_map.mpr series.sorted

-- The first of a list in order is in relation to all others.
theorem head?_eq_some_iff {r : Timestamp → Timestamp → Prop} {ts : List Timestamp}
    (hr : ∀ s t, r s t → ¬r t s) (h : ts.Pairwise r) :
    ts.head? = some t ↔ t ∈ ts ∧ ∀ u ∈ ts, t = u ∨ r t u := by
  cases ts
  case nil => simp
  case cons s ts =>
    have ⟨hs, _⟩ := List.pairwise_cons.mp h
    rw [List.head?_cons, Option.some_inj]
    constructor
    case mp =>
      rintro rfl
      refine ⟨List.mem_cons_self, fun u hu => ?_⟩
      rcases List.mem_cons.mp hu with rfl | hu
      · exact .inl rfl
      · exact .inr (hs u hu)
    case mpr =>
      rintro ⟨ht, hall⟩
      rcases List.mem_cons.mp ht with rfl | ht
      · rfl
      · rcases hall s List.mem_cons_self with rfl | h
        · rfl
        · exact absurd h (hr s t (hs t ht))

theorem earliest?_eq_some_iff :
    series.earliest? = some t ↔ t ∈ series.keys ∧ ∀ u ∈ series.keys, t ≤ u := by
  have hr (s t : Timestamp) (h : s < t) : ¬t < s := Timestamp.lt_asymm h
  simp only [earliest?, head?_eq_some_iff hr series.pairwise_keys, Timestamp.le_iff_eq_or_lt]

theorem latest?_eq_some_iff :
    series.latest? = some t ↔ t ∈ series.keys ∧ ∀ u ∈ series.keys, u ≤ t := by
  have hr (s t : Timestamp) (h : t < s) : ¬s < t := Timestamp.lt_asymm h
  have hs : series.keys.reverse.Pairwise fun later earlier => earlier < later :=
    List.pairwise_reverse.mpr series.pairwise_keys
  simp only [latest?, ← List.head?_reverse, head?_eq_some_iff hr hs, List.mem_reverse,
    Timestamp.le_iff_eq_or_lt, @eq_comm _ t]

end Ends

theorem range_eq_filter (series : Series) (h : start ≤ stop) :
    series.range start stop = series.entries.filter fun e => start ≤ e.1 ∧ e.1 ≤ stop := by
  simp [range, Timestamp.not_lt_iff_le.mpr h]

theorem mem_range_iff (h : start ≤ stop) :
    (t, i) ∈ series.range start stop ↔ (t, i) ∈ series.entries ∧ start ≤ t ∧ t ≤ stop := by
  simp [range_eq_filter series h]

theorem pairwise_untilDesc (series : Series) (stop : Timestamp) :
    (series.untilDesc stop).Pairwise fun later earlier => earlier.1 < later.1 :=
  List.pairwise_reverse.mpr (series.sorted.filter _)

-- The intervals up to `stop` are those of a range, and what lies before it.
theorem untilDesc_eq_append (series : Series) (h : start ≤ stop) :
    series.untilDesc stop =
      (series.range start stop).reverse ++ (series.entries.filter (·.1 < start)).reverse := by
  rw [untilDesc, ← List.reverse_append]
  congr 1
  rw [series.range_eq_filter h]
  apply SortedMap.eq_of_mem_iff (series.sorted.filter _)
  case hs' =>
    refine List.pairwise_append.mpr ⟨series.sorted.filter _, series.sorted.filter _, ?_⟩
    intro a ha b hb
    have ha := (List.mem_filter.mp ha).right
    have hb := (List.mem_filter.mp hb).right
    simp only [decide_eq_true_eq] at ha hb
    exact Timestamp.lt_of_lt_of_le ha hb.left
  case h =>
    intro e
    simp only [List.mem_append, List.mem_filter, decide_eq_true_eq, ← and_or_left]
    apply and_congr_right
    intro _
    constructor
    case mp =>
      intro hle
      by_cases hlt : e.1 < start
      · exact .inl hlt
      · exact .inr ⟨Timestamp.not_lt_iff_le.mp hlt, hle⟩
    case mpr =>
      rintro (hlt | ⟨-, hle⟩)
      · exact Timestamp.le_of_lt (Timestamp.lt_of_lt_of_le hlt h)
      · exact hle

-- A range that ends at an instant knows the interval that ends there.
theorem find?_range (h : start ≤ stop) :
    ((series.range start stop).find? fun e => e.1 = stop).map (·.2) = series.get? stop := by
  apply Option.ext
  intro i
  rw [← SortedMap.mem_entries_iff]
  constructor
  case mp =>
    intro hi
    obtain ⟨⟨t, i⟩, hf, rfl⟩ := Option.map_eq_some_iff.mp hi
    have hm := ((mem_range_iff h).mp (List.mem_of_find?_eq_some hf)).left
    have ht := List.find?_some hf
    simp only [decide_eq_true_eq] at ht
    exact ht ▸ hm
  case mpr =>
    intro hm
    have hr : (stop, i) ∈ series.range start stop :=
      (mem_range_iff h).mpr ⟨hm, h, Timestamp.le_rfl⟩
    cases hf : (series.range start stop).find? fun e => e.1 = stop
    case none =>
      have := List.find?_eq_none.mp hf _ hr
      simp at this
    case some e =>
      obtain ⟨t, j⟩ := e
      have hj := ((mem_range_iff h).mp (List.mem_of_find?_eq_some hf)).left
      have ht := List.find?_some hf
      simp only [decide_eq_true_eq] at ht
      rw [ht, SortedMap.mem_entries_iff] at hj
      rw [SortedMap.mem_entries_iff, hj] at hm
      simpa using hm

end Series

end ContainerSizing
