import ContainerSizing.Proofs.Engine.DurationBased.Outcome

namespace ContainerSizing

open Binary64

-- Up to `stop`, durations are valid, and an interval begins where the one before it ends or later.
-- Where the first one begins does not matter.
structure Series.IsDisjoint (series : Series) (stop : Timestamp) : Prop where
  duration : ∀ e ∈ series.untilDesc stop, isMeasure e.2.minutes
  start    : (series.untilDesc stop).IsChain fun later earlier =>
    ∃ s, later.2.start later.1 = .ok s ∧ earlier.1 ≤ s

namespace Series.IsDisjoint

variable {series : Series} {stop s : Timestamp} {d e : Timestamp × Interval} {k n : ℕ}

-- Intervals further back begin earlier, whatever lies between them.
theorem exists_start_le (h : series.IsDisjoint stop) (hk : (series.untilDesc stop)[k]? = some d)
    (hn : (series.untilDesc stop)[n]? = some e) (hkn : k ≤ n) (hs : e.2.start e.1 = .ok s) :
    ∃ s', d.2.start d.1 = .ok s' ∧ s ≤ s' := by
  obtain ⟨hk', rfl⟩ := List.getElem?_eq_some_iff.mp hk
  obtain ⟨hn', rfl⟩ := List.getElem?_eq_some_iff.mp hn
  rcases hkn.eq_or_lt with rfl | hlt
  case inl => exact ⟨s, hs, Timestamp.le_rfl⟩
  case inr =>
    have ⟨s', hs', hle⟩ := List.isChain_iff_getElem.mp h.start k (by omega)
    refine ⟨s', hs', ?_⟩
    have hstart : s ≤ (series.untilDesc stop)[n].1 :=
      Timestamp.minutesBefore?_le (h.duration _ (List.getElem_mem hn'))
        (Interval.start_eq_ok_iff.mp hs)
    have hnext : (series.untilDesc stop)[n].1 ≤ (series.untilDesc stop)[k + 1].1 := by
      rcases (Nat.succ_le_of_lt hlt).eq_or_lt with rfl | hlt'
      · exact Timestamp.le_rfl
      · exact Timestamp.le_of_lt <|
          List.pairwise_iff_getElem.mp (series.pairwise_untilDesc stop) (k + 1) n _ hn' hlt'
    exact Timestamp.le_trans (Timestamp.le_trans hstart hnext) hle

end Series.IsDisjoint

namespace DurationBased

open Engine (hourBefore nextHour)

theorem start?_antitone {series : Series} {stop : Timestamp} (short long : Term)
    (hd : series.IsDisjoint stop) (h : short.leastMinutes ≤ long.leastMinutes) :
    (∀ s, (Walk.ofTerm series long stop).start? = .ok (some s) →
      ∃ s', (Walk.ofTerm series short stop).start? = .ok (some s') ∧ s ≤ s') ∧
    ((Walk.ofTerm series short stop).start? = .ok none →
      (Walk.ofTerm series long stop).start? = .ok none) := by
  constructor
  case left =>
    intro s hs
    obtain ⟨e, ⟨n, he⟩, _, hs⟩ := start?_eq_some_iff.mp hs
    obtain ⟨k, hk, d, hd'⟩ := he.exists_of_le h
    obtain ⟨s', hs', hle⟩ := hd.exists_start_le hd'.entry he.entry hk hs
    exact ⟨s', start?_eq_some_iff.mpr ⟨d, ⟨k, hd'⟩, hd.duration d hd'.mem, hs'⟩, hle⟩
  case right =>
    intro hn
    rw [start?_eq_none_iff] at hn ⊢
    intro e ⟨n, he⟩
    obtain ⟨k, _, d, hd'⟩ := he.exists_of_le h
    exact hn d ⟨k, hd'⟩

-- Two hours, one right after the other.
def adjacentHours : Series :=
  SortedMap.ofList [(default, .bare 60.0), (nextHour, .bare 60.0)]

theorem untilDesc_adjacentHours :
    adjacentHours.untilDesc nextHour = [(nextHour, .bare 60.0), (default, .bare 60.0)] := by
  have he : adjacentHours.entries = [(default, .bare 60.0), (nextHour, .bare 60.0)] := rfl
  have hle : (default : Timestamp) ≤ nextHour := by decide +kernel
  simp [Series.untilDesc, he, hle, Timestamp.le_rfl]

theorem isDisjoint_adjacentHours : adjacentHours.IsDisjoint nextHour where
  duration := by
    rw [untilDesc_adjacentHours]
    intro e he
    simp only [List.mem_cons, List.not_mem_nil, or_false] at he
    rcases he with rfl | rfl <;> decide +kernel
  start := by
    have hs : nextHour.minutesBefore? 60.0 = some default := by decide +kernel
    rw [untilDesc_adjacentHours, List.isChain_pair]
    exact ⟨default, Interval.start_eq_ok_iff.mpr hs, Timestamp.le_rfl⟩

theorem start?_adjacentHours :
    (Walk.ofTerm adjacentHours ⟨"long", 1, 90.0⟩ nextHour).start? = .ok (some hourBefore) :=
  eq_ok_of_toOption (by decide +kernel)

theorem start?_antitone_adjacentHours :
    adjacentHours.IsDisjoint nextHour ∧ (30.0 : Float) ≤ 90.0 ∧
    (Walk.ofTerm adjacentHours ⟨"long", 1, 90.0⟩ nextHour).start? = .ok (some hourBefore) ∧
    ∃ s, (Walk.ofTerm adjacentHours ⟨"short", 1, 30.0⟩ nextHour).start? = .ok (some s) ∧
      hourBefore ≤ s := by
  have hle : (30.0 : Float) ≤ 90.0 := by decide +kernel
  have h := start?_antitone ⟨"short", 1, 30.0⟩ ⟨"long", 1, 90.0⟩ isDisjoint_adjacentHours hle
  exact ⟨isDisjoint_adjacentHours, hle, start?_adjacentHours, h.left _ start?_adjacentHours⟩

end DurationBased

end ContainerSizing
