import ContainerSizing.Proofs.Engine.DurationBased.Start

namespace ContainerSizing

open Binary64

namespace Walk.Stops

variable {goal collected : Float} {es : List (Timestamp × Interval)} {d e : Timestamp × Interval}
variable {k n : ℕ}

-- Where a walk does not stop, the duration is valid and more minutes are needed.

theorem not_total_ge (h : Stops goal collected es n e) (hk : k < n) :
    ¬total collected (es.take (k + 1)) ≥ goal := by
  have hlt : k < es.length := hk.trans (List.getElem?_eq_some_iff.mp h.entry).choose
  have hn := h.first k hk es[k] (List.getElem?_eq_getElem hlt)
  rw [List.take_add_one, List.getElem?_eq_getElem hlt]
  exact (not_or.mp hn).right

theorem isMeasure_of_mem_take (h : Stops goal collected es n e) (hd : d ∈ es.take n) :
    isMeasure d.2.minutes := by
  obtain ⟨k, hk, rfl⟩ := List.mem_take_iff_getElem.mp hd
  have hn := h.first k (by omega) es[k] (List.getElem?_eq_getElem _)
  exact not_not.mp (not_or.mp hn).left

end Walk.Stops

namespace Series

variable {series : Series} {start stop : Timestamp} {n : ℕ} {d e : Timestamp × Interval}

-- Up to `stop`, no interval begins before the one ahead of it has ended.
def HasNoOverlap (series : Series) (stop : Timestamp) : Prop :=
  (series.untilDesc stop).IsChain fun later earlier =>
    ∀ s, later.2.start later.1 = .ok s → earlier.1 ≤ s

theorem IsDisjoint.hasNoOverlap (h : series.IsDisjoint stop) : series.HasNoOverlap stop := by
  refine h.start.imp ?_
  rintro later earlier ⟨s, hs, hle⟩ s' hs'
  obtain rfl := Except.ok.inj (hs.symm.trans hs')
  exact hle

theorem range_eq_reverse (series : Series) (h : start ≤ stop) :
    series.range start stop = ((series.untilDesc stop).filter fun e => start ≤ e.1).reverse := by
  rw [untilDesc, ← List.filter_reverse, List.reverse_reverse, List.filter_filter,
    series.range_eq_filter h]
  simp only [Bool.decide_and]

-- The entries up to the one at `n` end where it ends, or later.
theorem le_of_mem_take (he : (series.untilDesc stop)[n]? = some e)
    (hd : d ∈ (series.untilDesc stop).take (n + 1)) : e.1 ≤ d.1 := by
  obtain ⟨hn, rfl⟩ := List.getElem?_eq_some_iff.mp he
  obtain ⟨k, hk, rfl⟩ := List.mem_take_iff_getElem.mp hd
  rcases (Nat.le_of_lt_succ (Nat.lt_of_lt_of_le hk (Nat.min_le_left _ _))).eq_or_lt with rfl | hlt
  · exact Timestamp.le_rfl
  · exact Timestamp.le_of_lt <|
      List.pairwise_iff_getElem.mp (series.pairwise_untilDesc stop) k n _ hn hlt

-- The entries behind it end before it begins.
theorem HasNoOverlap.le_start (h : series.HasNoOverlap stop)
    (he : (series.untilDesc stop)[n]? = some e) (hs : e.2.start e.1 = .ok start)
    (hd : d ∈ (series.untilDesc stop).drop (n + 1)) : d.1 ≤ start := by
  obtain ⟨hn, rfl⟩ := List.getElem?_eq_some_iff.mp he
  obtain ⟨k, hk, rfl⟩ := List.mem_drop_iff_getElem.mp hd
  have hnext : (series.untilDesc stop)[n + 1].1 ≤ start :=
    List.isChain_iff_getElem.mp h n (by omega) start hs
  rcases Nat.eq_zero_or_pos k with rfl | hpos
  · exact hnext
  · refine Timestamp.le_trans (Timestamp.le_of_lt ?_) hnext
    exact List.pairwise_iff_getElem.mp (series.pairwise_untilDesc stop) (n + 1) (n + 1 + k) _
      (by omega) (by omega)

-- At most one entry ends at an instant.
theorem length_le_one_of_eq {es : List (Timestamp × Interval)} (hs : es.Sublist (series.untilDesc stop))
    (h : ∀ d ∈ es, d.1 = start) : es.length ≤ 1 := by
  have hp := (series.pairwise_untilDesc stop).sublist hs
  match es with
  | [] | [_] => simp
  | d :: d' :: _ =>
    have hlt : d'.1 < d.1 := List.rel_of_pairwise_cons hp List.mem_cons_self
    rw [h d (by simp), h d' (by simp)] at hlt
    exact absurd hlt (Timestamp.not_lt_iff_le.mpr Timestamp.le_rfl)

end Series

namespace DurationBased

open Engine (nextHour)
open Walk (total)

variable {series : Series} {term : Term} {start stop : Timestamp} {n : ℕ} {d e : Timestamp × Interval}

-- The intervals that a walk has collected when it stops lie in the window that it finds.
theorem mem_range_of_mem_take (he : (series.untilDesc stop)[n]? = some e)
    (hm : isMeasure e.2.minutes) (hs : e.2.start e.1 = .ok start)
    (hd : d ∈ (series.untilDesc stop).take (n + 1)) : d ∈ series.range start stop := by
  have hle : start ≤ e.1 := Timestamp.minutesBefore?_le hm (Interval.start_eq_ok_iff.mp hs)
  have ⟨_, hstop⟩ := Series.mem_untilDesc.mp (List.mem_of_getElem? he)
  have ⟨hmem, hdstop⟩ := Series.mem_untilDesc.mp (List.mem_of_mem_take hd)
  exact (Series.mem_range_iff (Timestamp.le_trans hle hstop)).mpr
    ⟨hmem, Timestamp.le_trans hle (Series.le_of_mem_take he hd), hdstop⟩

-- Without overlap, all that was not collected ends at the start of the window, or before it.
theorem range_eq_append (ho : series.HasNoOverlap stop) (he : (series.untilDesc stop)[n]? = some e)
    (hm : isMeasure e.2.minutes) (hs : e.2.start e.1 = .ok start) :
    ∃ extra, series.range start stop = extra ++ ((series.untilDesc stop).take (n + 1)).reverse ∧
      extra.length ≤ 1 ∧ ∀ d ∈ extra, d.1 = start := by
  have hle : start ≤ stop :=
    Timestamp.le_trans (Timestamp.minutesBefore?_le hm (Interval.start_eq_ok_iff.mp hs))
      (Series.mem_untilDesc.mp (List.mem_of_getElem? he)).right
  let behind := (series.untilDesc stop).drop (n + 1)
  have htake : ((series.untilDesc stop).take (n + 1)).filter (fun d => start ≤ d.1) =
      (series.untilDesc stop).take (n + 1) := by
    refine List.filter_eq_self.mpr fun d hd => decide_eq_true ?_
    exact (Series.mem_range (mem_range_of_mem_take he hm hs hd)).right
  have hstart : ∀ d ∈ behind.filter fun d => start ≤ d.1, d.1 = start := by
    intro d hd
    have ⟨hd, hge⟩ := List.mem_filter.mp hd
    exact Timestamp.le_antisymm (ho.le_start he hs hd) (of_decide_eq_true hge)
  refine ⟨(behind.filter fun d => start ≤ d.1).reverse, ?append, ?length, ?start⟩
  case append =>
    rw [series.range_eq_reverse hle, ← List.reverse_append, ← htake, ← List.filter_append,
      List.take_append_drop]
  case length =>
    rw [List.length_reverse]
    exact Series.length_le_one_of_eq (List.filter_sublist.trans (List.drop_sublist _ _)) hstart
  case start => exact fun d hd => hstart d (List.mem_reverse.mp hd)

theorem start?_content (h : (Walk.ofTerm series term stop).start? = .ok (some start)) :
    ∃ n e, (series.untilDesc stop)[n]? = some e ∧
      total 0.0 ((series.untilDesc stop).take (n + 1)) ≥ term.leastMinutes ∧
      (∀ k < n, ¬total 0.0 ((series.untilDesc stop).take (k + 1)) ≥ term.leastMinutes) ∧
      e.2.start e.1 = .ok start ∧ start ≤ e.1 ∧
      (∀ d ∈ (series.untilDesc stop).take (n + 1),
        isMeasure d.2.minutes ∧ d ∈ series.range start stop) ∧
      (series.HasNoOverlap stop →
        ∃ extra, series.range start stop = extra ++ ((series.untilDesc stop).take (n + 1)).reverse ∧
          extra.length ≤ 1 ∧ (∀ d ∈ extra, d.1 = start) ∧
          ∀ i, series.get? start = some i → (start, i) ∈ series.range start stop) := by
  obtain ⟨e, ⟨n, he⟩, hm, hs⟩ := start?_eq_some_iff.mp h
  have hstart : start ≤ e.1 := Timestamp.minutesBefore?_le hm (Interval.start_eq_ok_iff.mp hs)
  refine ⟨n, e, he.entry, ?reaches, ?first, hs, hstart, ?collected, ?exact⟩
  case reaches =>
    rw [List.take_add_one, he.entry]
    exact he.ends.resolve_left (not_not.mpr hm)
  case first => exact fun k hk => he.not_total_ge hk
  case collected =>
    intro d hd
    refine ⟨?_, mem_range_of_mem_take he.entry hm hs hd⟩
    rw [List.take_add_one, he.entry, List.mem_append] at hd
    rcases hd with hd | hd
    · exact he.isMeasure_of_mem_take hd
    · obtain rfl := List.mem_singleton.mp hd
      exact hm
  case exact =>
    intro ho
    obtain ⟨extra, hr, hlen, hextra⟩ := range_eq_append ho he.entry hm hs
    have hle := Timestamp.le_trans hstart (Series.mem_untilDesc.mp he.mem).right
    refine ⟨extra, hr, hlen, hextra, fun i hi => ?_⟩
    exact (Series.mem_range_iff hle).mpr ⟨SortedMap.mem_entries_iff.mpr hi, Timestamp.le_rfl, hle⟩

-- The later hour is enough, and the earlier one ends where it begins.
theorem start?_content_adjacentHours :
    (Walk.ofTerm adjacentHours ⟨"short", 1, 60.0⟩ nextHour).start? = .ok (some default) ∧
    adjacentHours.HasNoOverlap nextHour ∧
    ∃ n extra, adjacentHours.range default nextHour =
        extra ++ ((adjacentHours.untilDesc nextHour).take (n + 1)).reverse ∧
      extra.length ≤ 1 ∧ (default, .bare 60.0) ∈ adjacentHours.range default nextHour := by
  have hs : (Walk.ofTerm adjacentHours ⟨"short", 1, 60.0⟩ nextHour).start? = .ok (some default) :=
    eq_ok_of_toOption (by decide +kernel)
  have ho := isDisjoint_adjacentHours.hasNoOverlap
  have hm : adjacentHours.get? default = some (.bare 60.0) :=
    SortedMap.mem_entries_iff.mp List.mem_cons_self
  obtain ⟨n, _, _, _, _, _, _, _, h⟩ := start?_content hs
  obtain ⟨extra, hr, hlen, _, hextra⟩ := h ho
  exact ⟨hs, ho, n, extra, hr, hlen, hextra _ hm⟩

end DurationBased

end ContainerSizing
