import ContainerSizing.Proofs.Engine.DurationBased.Outcome
import ContainerSizing.Proofs.SortedMap.History

namespace ContainerSizing.Series

open SortedMap (WritesLast ofList)

variable {series : Series} {log : List (Timestamp × Interval)}

-- The series looks the same from all sides: as the last writes of the log, by their instants.
structure Shows (series : Series) (log : List (Timestamp × Interval)) : Prop where
  get?      : ∀ t i, series.get? t = some i ↔ WritesLast log t i
  sorted    : series.keys.Pairwise (· < ·)
  keys      : ∀ t, t ∈ series.keys ↔ t ∈ log.map (·.1)
  entries   : ∀ t i, (t, i) ∈ series.entries ↔ WritesLast log t i
  size      : series.size = (log.map (·.1)).toFinset.card
  untilDesc : ∀ stop,
    (series.untilDesc stop).Pairwise (fun later earlier => earlier.1 < later.1) ∧
    ∀ t i, (t, i) ∈ series.untilDesc stop ↔ WritesLast log t i ∧ t ≤ stop
  earliest? : ∀ t, series.earliest? = some t ↔ t ∈ log.map (·.1) ∧ ∀ u ∈ log.map (·.1), t ≤ u
  latest?   : ∀ t, series.latest? = some t ↔ t ∈ log.map (·.1) ∧ ∀ u ∈ log.map (·.1), u ≤ t

theorem shows_of_reflects (h : series.Reflects log) : series.Shows log where
  get?      := h
  sorted    := series.pairwise_keys
  keys _    := h.mem_keys_iff
  entries _ _ := h.mem_entries_iff
  size      := h.size_eq
  untilDesc stop := by
    refine ⟨series.pairwise_untilDesc stop, fun t i => ?_⟩
    rw [mem_untilDesc, h.mem_entries_iff]
  earliest? t := by simp only [earliest?_eq_some_iff, h.mem_keys_iff]
  latest? t := by simp only [latest?_eq_some_iff, h.mem_keys_iff]

-- The series that is made of some intervals at once and then written to one by one.
def written (initial writes : List (Timestamp × Interval)) : Series :=
  (ofList initial).insertAll writes

theorem reflects_written (initial writes : List (Timestamp × Interval)) :
    (written initial writes).Reflects (initial ++ writes) :=
  (SortedMap.reflects_ofList initial).insertAll

-- Only the last writes count, for the series and for what engines, checks and printers make of it.
theorem written_shows (initial writes : List (Timestamp × Interval)) :
    (written initial writes).Shows (initial ++ writes) ∧
    ∀ initial' writes' : List (Timestamp × Interval),
      (∀ t i, WritesLast (initial' ++ writes') t i ↔ WritesLast (initial ++ writes) t i) →
      written initial' writes' = written initial writes ∧
      (written initial' writes').toJson = (written initial writes).toJson ∧
      ∀ engine : Engine,
        engine.hasLeastData (written initial' writes') =
          engine.hasLeastData (written initial writes) ∧
        ∀ stop, engine.recommend (written initial' writes') stop =
          engine.recommend (written initial writes) stop := by
  refine ⟨shows_of_reflects (reflects_written initial writes), ?_⟩
  intro initial' writes' hw
  have he : written initial' writes' = written initial writes :=
    (reflects_written initial' writes').eq_of_writesLast_iff (reflects_written initial writes) hw
  rw [he]
  exact ⟨rfl, rfl, fun _ => ⟨rfl, fun _ => rfl⟩⟩

section Rewritten

open Engine (hourBefore)

-- The first hour is measured twice, once before the second one and once after it.

def firstHours : List (Timestamp × Interval) :=
  [(hourBefore, .bare 60.0), (default, .bare 15.0)]

def lastHours : List (Timestamp × Interval) :=
  [(default, .bare 15.0), (hourBefore, .bare 30.0)]

theorem written_shows_firstHours :
    (∀ t i, WritesLast lastHours t i ↔
      WritesLast (firstHours ++ [(hourBefore, .bare 30.0)]) t i) ∧
    (written firstHours [(hourBefore, .bare 30.0)]).size = 2 ∧
    written [] lastHours = written firstHours [(hourBefore, .bare 30.0)] := by
  have hw (t : Timestamp) (i : Interval) :
      WritesLast lastHours t i ↔ WritesLast (firstHours ++ [(hourBefore, .bare 30.0)]) t i :=
    (WritesLast.cons_iff_of_mem (by decide +kernel)).symm
  have ⟨hshows, hsame⟩ := written_shows firstHours [(hourBefore, .bare 30.0)]
  exact ⟨hw, hshows.size.trans (by decide +kernel), (hsame [] lastHours hw).left⟩

end Rewritten

end ContainerSizing.Series
