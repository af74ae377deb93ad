import ContainerSizing.Proofs.Engine.CapacityBased
import ContainerSizing.Proofs.Engine.DurationBased.Outcome

namespace ContainerSizing

namespace Series

def AgreeUntil (stop : Timestamp) (series series' : Series) : Prop :=
  ∀ t, t ≤ stop → series.get? t = series'.get? t

def AgreeWithin (start stop : Timestamp) (series series' : Series) : Prop :=
  ∀ t, start ≤ t → t ≤ stop → series.get? t = series'.get? t

-- Some interval ends at `start` or before it.
def ReachesBack (series : Series) (start : Timestamp) : Prop :=
  ∃ earliest, series.earliest? = some earliest ∧ earliest ≤ start

variable {series series' : Series} {start stop : Timestamp}

theorem AgreeUntil.within (h : AgreeUntil stop series series') : AgreeWithin start stop series series' :=
  fun t _ ht => h t ht

theorem AgreeUntil.untilDesc_eq (h : AgreeUntil stop series series') :
    series.untilDesc stop = series'.untilDesc stop := by
  rw [untilDesc, untilDesc, SortedMap.filter_entries_congr (p := fun t => t ≤ stop)]
  intro t ht
  exact h t (of_decide_eq_true ht)

theorem AgreeWithin.range_eq (h : AgreeWithin start stop series series') (hle : start ≤ stop) :
    series.range start stop = series'.range start stop := by
  rw [range, range, if_neg (Timestamp.not_lt_iff_le.mpr hle),
    SortedMap.filter_entries_congr (p := fun t => start ≤ t ∧ t ≤ stop)]
  intro t ht
  obtain ⟨hs, ht⟩ := of_decide_eq_true ht
  exact h t hs ht

end Series

open Series

theorem Window.ofSeries_congr {series series' : Series} {start stop : Timestamp}
    (h : series.range start stop = series'.range start stop) :
    ofSeries series start stop = ofSeries series' start stop := by
  rw [ofSeries, ofSeries, h]

namespace DurationBased

variable {tuning : Tuning} {series series' : Series} {term : Term} {start stop : Timestamp}
variable {e : Timestamp × Interval}

-- The walk stops inside the window, and the series agree on all that it has passed by then.
theorem StopsAt.congr (h : StopsAt series term stop e) (hs : start ≤ e.1)
    (ha : AgreeWithin start stop series series') : StopsAt series' term stop e := by
  obtain ⟨n, h⟩ := h
  have hle : start ≤ stop := Timestamp.le_trans hs (Series.mem_untilDesc.mp h.mem).right
  rw [series.untilDesc_eq_append hle] at h
  have hn : n < (series.range start stop).reverse.length := by
    by_contra hn
    have he := h.entry
    rw [List.getElem?_append_right (not_lt.mp hn)] at he
    have := (List.mem_filter.mp (List.mem_reverse.mp (List.mem_of_getElem? he))).right
    exact Timestamp.not_lt_iff_le.mpr hs (of_decide_eq_true this)
  rw [Walk.Stops.append_iff hn, ha.range_eq hle] at h
  rw [ha.range_eq hle] at hn
  rw [StopsAt, series'.untilDesc_eq_append hle]
  exact ⟨n, (Walk.Stops.append_iff hn).mpr h⟩

theorem start_le_of_start? (h : (Walk.ofTerm series term stop).start? = .ok (some start)) :
    start ≤ stop := by
  obtain ⟨e, he, hm, hs⟩ := start?_eq_some_iff.mp h
  exact Timestamp.le_trans (Timestamp.minutesBefore?_le hm (Interval.start_eq_ok_iff.mp hs))
    he.mem.right

theorem start?_congr (h : (Walk.ofTerm series term stop).start? = .ok (some start))
    (ha : AgreeWithin start stop series series') :
    (Walk.ofTerm series' term stop).start? = .ok (some start) := by
  obtain ⟨e, he, hm, hs⟩ := start?_eq_some_iff.mp h
  have hle := Timestamp.minutesBefore?_le hm (Interval.start_eq_ok_iff.mp hs)
  exact start?_eq_some_iff.mpr ⟨e, he.congr hle ha, hm, hs⟩

theorem evaluate_congr (h : (Walk.ofTerm series term stop).start? = .ok (some start))
    (ha : AgreeWithin start stop series series') :
    evaluate tuning series term stop = evaluate tuning series' term stop := by
  rw [evaluate_of_start? h, evaluate_of_start? (start?_congr h ha),
    Window.ofSeries_congr (ha.range_eq (start_le_of_start? h))]

theorem evaluate_congr_of_agreeUntil (tuning : Tuning) (term : Term)
    (h : AgreeUntil stop series series') :
    evaluate tuning series term stop = evaluate tuning series' term stop := by
  have hw : Walk.ofTerm series term stop = Walk.ofTerm series' term stop := by
    rw [Walk.ofTerm, Walk.ofTerm, h.untilDesc_eq]
  by_cases hs : ∃ start, (Walk.ofTerm series term stop).start? = .ok (some start)
  case pos =>
    have ⟨start, hs⟩ := hs
    exact evaluate_congr hs h.within
  case neg =>
    rw [evaluate, evaluate, ← hw]
    cases hw' : (Walk.ofTerm series term stop).start?
    case error => rfl
    case ok start? =>
      cases start?
      case none => rfl
      case some start => exact absurd ⟨start, hw'⟩ hs

end DurationBased

namespace CapacityBased

variable {tuning : Tuning} {series series' : Series} {term : Term} {begin stop : Timestamp}

-- A window without intervals is no window.
def filled? : Except EvaluationError Window → Except EvaluationError (Option Window)
  | .ok w => .ok (some w)
  | .error (.emptyWindow ..) => .ok none
  | .error e => .error e

theorem ofSeries_of_earliest?_eq_none (h : series.earliest? = none) :
    Window.ofSeries series begin stop = .error (.emptyWindow begin stop) := by
  have he : series.entries = [] := by simpa [Series.earliest?, SortedMap.keys] using h
  simp [Window.ofSeries, Series.range, he]

-- How old the series is decides whether there is a window, and its range which one.

theorem reachesBack_iff {earliest : Timestamp} (h : series.earliest? = some earliest) :
    series.ReachesBack begin ↔ ¬begin < earliest := by
  rw [ReachesBack, h, Timestamp.not_lt_iff_le]
  simp

theorem window?_eq_filled? (hs : start term stop = .ok begin)
    (h : term.days = 1 ∨ series.ReachesBack begin) :
    window? series term stop = filled? (Window.ofSeries series begin stop) := by
  rw [window?]
  cases he : series.earliest?
  case none => rw [ofSeries_of_earliest?_eq_none he, filled?]
  case some earliest =>
    rw [reachesBack_iff he] at h
    have hd : ¬(begin < earliest ∧ term.days ≠ 1) := by tauto
    simp only [hs, bind, Except.bind, if_neg hd]
    rw [filled?.eq_def]
    rfl

theorem window?_eq_none (hs : start term stop = .ok begin)
    (h : ¬(term.days = 1 ∨ series.ReachesBack begin)) : window? series term stop = .ok none := by
  rw [window?]
  cases he : series.earliest?
  case none => rfl
  case some earliest =>
    rw [reachesBack_iff he] at h
    have hd : begin < earliest ∧ term.days ≠ 1 := by tauto
    simp only [hs, bind, Except.bind, if_pos hd]
    rfl

theorem evaluate_congr (hs : start term stop = .ok begin) (ha : AgreeWithin begin stop series series')
    (h : term.days = 1 ∨ (series.ReachesBack begin ↔ series'.ReachesBack begin)) :
    evaluate tuning series term stop = evaluate tuning series' term stop := by
  have hiff : term.days = 1 ∨ series.ReachesBack begin ↔ term.days = 1 ∨ series'.ReachesBack begin := by
    tauto
  have hw : window? series term stop = window? series' term stop := by
    by_cases h : term.days = 1 ∨ series.ReachesBack begin
    case pos =>
      rw [window?_eq_filled? hs h, window?_eq_filled? hs (hiff.mp h),
        Window.ofSeries_congr (ha.range_eq (start_le hs))]
    case neg => rw [window?_eq_none hs h, window?_eq_none hs (mt hiff.mpr h)]
  rw [evaluate, evaluate, hw]

end CapacityBased

namespace Engine

variable {engine : Engine} {series series' : Series} {stop : Timestamp} {term : Term} {label : String}

-- What two series have in common for a term: its recommendation, and the entry that it makes.
structure SameFor (engine : Engine) (series series' : Series) (stop : Timestamp) (term : Term) :
    Prop where
  outcome : engine.outcome series stop term = engine.outcome series' stop term
  entry   : engine.policy.last? term.label = some term →
    (engine.recommend series stop).get? term.label = (engine.recommend series' stop).get? term.label

theorem sameFor_of_evaluate (h : engine.evaluate series term stop = engine.evaluate series' term stop) :
    engine.SameFor series series' stop term := by
  have ho : engine.outcome series stop term = engine.outcome series' stop term := by
    rw [Engine.outcome, Engine.outcome, h]
  refine ⟨ho, ?_⟩
  intro hl
  rw [get?_recommend_eq, get?_recommend_eq, hl, Option.map_some, Option.map_some, ho]

theorem recommend_local (engine : Engine) (series series' : Series) (stop : Timestamp) :
    (engine.kind = .durationBased →
      (AgreeUntil stop series series' →
        engine.recommend series stop = engine.recommend series' stop) ∧
      ∀ term start, (Walk.ofTerm series term stop).start? = .ok (some start) →
        AgreeWithin start stop series series' → engine.SameFor series series' stop term) ∧
    (engine.kind = .capacityBased →
      ∀ term start, CapacityBased.start term stop = .ok start →
        AgreeWithin start stop series series' →
        (term.days = 1 ∨ (series.ReachesBack start ↔ series'.ReachesBack start)) →
        engine.SameFor series series' stop term) := by
  refine ⟨fun hk => ⟨?before, ?within⟩, ?days⟩
  case before =>
    intro h
    rw [recommend, recommend]
    congr 2
    funext t
    rw [outcome, outcome, evaluate_durationBased hk, evaluate_durationBased hk,
      DurationBased.evaluate_congr_of_agreeUntil _ _ h]
  case within =>
    intro term start hs h
    apply sameFor_of_evaluate
    rw [evaluate_durationBased hk, evaluate_durationBased hk, DurationBased.evaluate_congr hs h]
  case days =>
    intro hk term start hs h hr
    apply sameFor_of_evaluate
    rw [evaluate_capacityBased hk, evaluate_capacityBased hk, CapacityBased.evaluate_congr hs h hr]

section Disturbed

-- Series with bad durations outside the window: after it, and before it as well.

def dayBefore : Timestamp :=
  ⟨-86400, 0, by decide +kernel⟩

def twoDaysBefore : Timestamp :=
  ⟨-172800, 0, by decide +kernel⟩

def continuedSeries : Series :=
  measuredSeries.insert nextHour (.bare (-60.0))

def disturbedSeries : Series :=
  continuedSeries.insert twoDaysBefore (.bare Binary64.notANumber)

theorem agreeUntil_continuedSeries : AgreeUntil default measuredSeries continuedSeries := by
  intro t ht
  symm
  apply SortedMap.get?_insert_of_ne
  rintro rfl
  exact absurd ht (by decide +kernel)

theorem agreeWithin_disturbedSeries (start : Timestamp) (h : twoDaysBefore < start) :
    AgreeWithin start default measuredSeries disturbedSeries := by
  intro t hs ht
  rw [agreeUntil_continuedSeries t ht]
  symm
  apply SortedMap.get?_insert_of_ne
  rintro rfl
  exact Timestamp.not_lt_iff_le.mpr hs h

theorem start?_measuredSeries :
    (Walk.ofTerm measuredSeries ⟨"short_term", 1, 30.0⟩ default).start? = .ok (some hourBefore) :=
  eq_ok_of_toOption (by decide +kernel)

theorem start_shortTerm :
    CapacityBased.start ⟨"short_term", 1, 30.0⟩ default = .ok dayBefore :=
  eq_ok_of_toOption (by decide +kernel)

theorem recommend_local_disturbedSeries :
    AgreeUntil default measuredSeries continuedSeries ∧
    AgreeWithin hourBefore default measuredSeries disturbedSeries ∧
    AgreeWithin dayBefore default measuredSeries disturbedSeries ∧
    (standard .durationBased).recommend measuredSeries default =
      (standard .durationBased).recommend continuedSeries default ∧
    ((standard .durationBased).recommend measuredSeries default).get? "short_term" =
      ((standard .durationBased).recommend disturbedSeries default).get? "short_term" ∧
    ((standard .capacityBased).recommend measuredSeries default).get? "short_term" =
      ((standard .capacityBased).recommend disturbedSeries default).get? "short_term" := by
  have hhour := agreeWithin_disturbedSeries hourBefore (by decide +kernel)
  have hday := agreeWithin_disturbedSeries dayBefore (by decide +kernel)
  have last (kind : EngineKind) := Policy.last?_of_mem (hasDistinctLabels_standard kind)
    (shortTerm_mem_standard kind)
  have before := ((recommend_local (standard .durationBased) measuredSeries continuedSeries default).left
    rfl).left agreeUntil_continuedSeries
  have within := ((recommend_local (standard .durationBased) measuredSeries disturbedSeries default).left
    rfl).right _ _ start?_measuredSeries hhour
  have days := (recommend_local (standard .capacityBased) measuredSeries disturbedSeries default).right
    rfl _ _ start_shortTerm hday (.inl rfl)
  exact ⟨agreeUntil_continuedSeries, hhour, hday, before, within.entry (last _), days.entry (last _)⟩

end Disturbed

end Engine

end ContainerSizing
