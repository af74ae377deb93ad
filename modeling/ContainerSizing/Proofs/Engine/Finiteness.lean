import ContainerSizing.Proofs.Engine.CapacityBased.Outcome
import ContainerSizing.Proofs.Engine.CapacityBased.Range
import ContainerSizing.Proofs.Engine.DurationBased.Range
import ContainerSizing.Proofs.WireFormat.Recommendation

namespace ContainerSizing.Engine

open Binary64 Reader

variable {engine : Engine} {kind : EngineKind} {tuning : Tuning} {policy : Policy} {series : Series}
variable {stop start : Timestamp} {label : String} {r : Recommendation}

-- Without a window there are no numbers but zero.
theorem isFinite_of_not_start (hr : (engine.recommend series stop).get? label = some r)
    (hs : r.start = none) : r.IsFinite := by
  have hzero : (0.0 : Float).isFinite := rfl
  have hempty := Allocation.each_empty (P := fun x => x.isFinite)
  rcases cases_of_recommend hr with rfl | ⟨error, rfl⟩ | h
  case inr.inr =>
    rw [hs] at h
    cases h
  all_goals exact ⟨hzero, hempty, hempty⟩

-- The window of a recommendation that has one.
theorem exists_window_of_recommend (he : build kind tuning policy = .ok engine)
    (hr : (engine.recommend series stop).get? label = some r) (hs : r.start = some start) :
    ∃ w term, Window.ofSeries series start stop = .ok w ∧
      (kind = .durationBased → DurationBased.recommend tuning term w = .ok r) ∧
      (kind = .capacityBased → CapacityBased.recommend tuning w = .ok r) := by
  have ⟨_, hp, he⟩ := build_eq_ok_iff.mp he
  subst he
  have ⟨term, _, _, hev⟩ := exists_evaluate (Policy.hasDistinctLabels_of_fault? hp) hr (hs ▸ rfl)
  cases kind
  case durationBased =>
    have ⟨w, _, hw, hrec⟩ := DurationBased.exists_window_of_evaluate hev (hs ▸ rfl)
    have ⟨hstart, _⟩ := DurationBased.recommend_bounds hrec
    obtain rfl := Option.some.inj (hs.symm.trans hstart)
    exact ⟨w, term, hw, fun _ => hrec, nofun⟩
  case capacityBased =>
    have ⟨w, hw, hrec⟩ := CapacityBased.exists_window_of_evaluate hev (hs ▸ rfl)
    have ⟨hstart, _⟩ := CapacityBased.recommend_bounds hrec
    obtain rfl := Option.some.inj (hs.symm.trans hstart)
    exact ⟨w, term, hw, nofun, fun _ => hrec⟩

-- A recommendation whose numbers are all finite comes back from its JSON, if they read back. Any other
-- is refused. Which it is is decided by the intervals of its window: their measures are finite, but what
-- is computed from them need not be.
theorem recommend_decodes_iff_inRange [Json.Conversion] (he : build kind tuning policy = .ok engine)
    (hr : (engine.recommend series stop).get? label = some r) :
    (r.IsFinite → r.Each ReadsBack → ComesBack Recommendation.reader Recommendation.toJson r) ∧
    (∀ r', decode Recommendation.reader r.toJson.render = some r' → r.IsFinite) ∧
    (r.toJson.holdsNull = false ↔ r.IsFinite) ∧
    (r.start = none → r.IsFinite) ∧
    ∀ start, r.start = some start →
      (kind = .durationBased →
        (r.IsFinite ↔ DurationBased.InRange tuning (series.range start stop))) ∧
      (kind = .capacityBased →
        (r.IsFinite ↔ CapacityBased.InRange tuning (series.range start stop))) := by
  have hlossless := Recommendation.lossless_reader
  refine ⟨hlossless.comesBack, fun _ => hlossless.of_decode_render, r.holdsNull_toJson,
    isFinite_of_not_start hr, ?_⟩
  intro start hs
  have ⟨ht, _⟩ := build_eq_ok_iff.mp he
  have ⟨w, term, hw, hduration, hcapacity⟩ := exists_window_of_recommend he hr hs
  have hsound := Window.isSound_of_ofSeries hw
  rw [← Window.intervals_of_ofSeries hw]
  exact ⟨fun hk => DurationBased.isFinite_iff_inRange ht hsound (hduration hk),
    fun hk => CapacityBased.isFinite_iff_inRange ht hsound (hcapacity hk)⟩

section OneHour

attribute [local instance] Json.Conversion.stepwise

theorem exists_range_usedHour (kind : EngineKind) :
    ∃ r start, ((standard kind).recommend (hourSeries usedHour) default).get? "short_term" = some r ∧
      r.start = some start ∧ r.Each ReadsBack ∧
      (hourSeries usedHour).range start default = [(default, usedHour)] := by
  have h : (((standard kind).recommend (hourSeries usedHour) default).get? "short_term").any
      fun r => r.Each ReadsBack ∧ r.start.any fun start => start ≤ default := by
    cases kind <;> decide +kernel
  simp only [Option.any_eq_true, decide_eq_true_eq] at h
  obtain ⟨r, hr, hback, start, hs, hle⟩ := h
  refine ⟨r, start, hr, hs, hback, ?_⟩
  have he : (hourSeries usedHour).entries = [(default, usedHour)] := rfl
  simp [Series.range_eq_filter _ hle, he, hle, Timestamp.le_rfl]

theorem DurationBased.inRange_usedHour : DurationBased.InRange default [(default, usedHour)] where
  cpu    := by decide +kernel
  memory := ⟨_, _, Statistics.percentile_singleton, Statistics.percentile_singleton,
    .inl (by decide +kernel)⟩

theorem CapacityBased.inRange_usedHour : CapacityBased.InRange default [(default, usedHour)] where
  minutes  := by decide +kernel
  capacity := by
    intro res
    cases res <;> decide +kernel
  most     := by
    intro res e he e' he' _
    obtain rfl := List.mem_singleton.mp he
    obtain rfl := List.mem_singleton.mp he'
    cases res <;> decide +kernel

theorem recommend_decodes_iff_inRange_usedHour :
    build .durationBased default .standard = .ok (standard .durationBased) ∧
    build .capacityBased default .standard = .ok (standard .capacityBased) ∧
    ∀ kind, ∃ r start,
      ((standard kind).recommend (hourSeries usedHour) default).get? "short_term" = some r ∧
      r.start = some start ∧ r.toJson.holdsNull = false ∧
      ComesBack Recommendation.reader Recommendation.toJson r := by
  refine ⟨build_standard _, build_standard _, ?_⟩
  intro kind
  have ⟨r, start, hr, hs, hback, hi⟩ := exists_range_usedHour kind
  have ⟨hdecodes, _, hnull, _, h⟩ := recommend_decodes_iff_inRange (build_standard kind) hr
  have ⟨hduration, hcapacity⟩ := hi ▸ h start hs
  have hf : r.IsFinite := by
    cases kind
    · exact (hduration rfl).mpr DurationBased.inRange_usedHour
    · exact (hcapacity rfl).mpr CapacityBased.inRange_usedHour
  exact ⟨r, start, hr, hs, hnull.mpr hf, hdecodes hf hback⟩

end OneHour

-- Only extreme measures lead out of range.
theorem recommend_isFinite_of_isModerate (he : build kind tuning policy = .ok engine)
    (hb : value tuning.usageBuffer ≤ 2 ^ 340) (hn : series.size ≤ 2 ^ 53)
    (hm : ∀ t i, (t, i) ∈ series.entries → i.IsModerate)
    (hr : (engine.recommend series stop).get? label = some r) : r.IsFinite := by
  cases hs : r.start
  case none => exact isFinite_of_not_start hr hs
  case some start =>
    have ⟨ht, _⟩ := build_eq_ok_iff.mp he
    have ⟨w, term, hw, hduration, hcapacity⟩ := exists_window_of_recommend he hr hs
    have hsound := Window.isSound_of_ofSeries hw
    have hne := Window.intervals_ne_nil hw
    have hm : ∀ e ∈ w.intervals, e.2.IsModerate := by
      intro e hi
      rw [Window.intervals_of_ofSeries hw] at hi
      exact hm e.1 e.2 (Series.mem_range hi).left
    cases kind
    case durationBased =>
      exact (DurationBased.isFinite_iff_inRange ht hsound (hduration rfl)).mpr
        (DurationBased.inRange_of_isModerate ht hb hsound hne hm)
    case capacityBased =>
      exact (CapacityBased.isFinite_iff_inRange ht hsound (hcapacity rfl)).mpr
        (CapacityBased.inRange_of_isModerate hsound hne ((Window.size_le hw).trans hn) hm)

section TwoAges

-- Two intervals whose minutes are in range, but not their sum.

def age : Interval :=
  .bare 1.7e308

def agesSeries : Series :=
  SortedMap.ofList [(hourBefore, age), (default, age)]

theorem fault?_agesSeries : ∀ t i, (t, i) ∈ agesSeries.entries → i.fault? t = none := by
  have h : ∀ e ∈ agesSeries.entries, e.2.fault? e.1 = none := by decide +kernel
  exact fun t i => h (t, i)

theorem not_isFinite_recommend_agesSeries :
    build .capacityBased default .standard = .ok (standard .capacityBased) ∧
    (∀ t i, (t, i) ∈ agesSeries.entries → i.fault? t = none) ∧
    ∃ r, ((standard .capacityBased).recommend agesSeries default).get? "short_term" = some r ∧
      ¬r.hours.isFinite ∧ r.toJson.holdsNull ∧
      ∀ [Json.Conversion] r', decode Recommendation.reader r.toJson.render ≠ some r' := by
  have hb := CapacityBased.start_eq_ok_iff.mp start_shortTerm
  have hm : ((default : Timestamp), age) ∈ agesSeries.entries :=
    List.mem_cons_of_mem _ (List.mem_singleton_self _)
  have hl : ¬CapacityBased.Lacks agesSeries ⟨"short_term", 1, 30.0⟩ default dayBefore := by
    intro hl
    cases hl
    case age hd => exact hd rfl
    case intervals h => exact h _ _ hm (by decide +kernel) (by decide +kernel)
  have hs : ¬CapacityBased.IsSpoiled agesSeries default dayBefore := by
    rintro ⟨t, i, hi, _, _, hf⟩
    rw [fault?_agesSeries t i hi] at hf
    cases hf
  have ⟨r, hev, hrec⟩ :=
    CapacityBased.evaluate_of_not_spoiled (standard .capacityBased).tuning hb hl hs
  have hr : ((standard .capacityBased).recommend agesSeries default).get? "short_term" = some r :=
    (get?_recommend (hasDistinctLabels_standard _) (shortTerm_mem_standard _)).trans
      (congrArg some (outcome_of_ok hev))
  have ⟨_, _, hhours, _⟩ := CapacityBased.recommend_bounds hrec
  have hn : ¬r.hours.isFinite := by
    rw [hhours]
    decide +kernel
  have hf : ¬r.IsFinite := fun hf => hn hf.hours
  refine ⟨build_standard _, fault?_agesSeries, r, hr, hn, ?_, ?_⟩
  · exact Bool.of_not_eq_false (mt r.holdsNull_toJson.mp hf)
  · exact fun r' hr' => hf (Recommendation.lossless_reader.of_decode_render hr')

end TwoAges

end ContainerSizing.Engine
