import ContainerSizing.Proofs.Engine.CapacityBased.Outcome
import ContainerSizing.Proofs.Window.Shift

namespace ContainerSizing

-- Only the message about a failure names instants.
structure Notification.Moves (n n' : Notification) : Prop where
  severity : n.severity = n'.severity
  code     : n.code = n'.code
  kind     : n.kind = n'.kind
  message  : n.kind ≠ .calculationFailed → n.message = n'.message

-- The same recommendation for another time.
structure Recommendation.Moves (span : ℤ) (r r' : Recommendation) : Prop where
  start         : Option.Rel (Timestamp.Moves span) r.start r'.start
  stop          : Option.Rel (Timestamp.Moves span) r.stop r'.stop
  hours         : r.hours = r'.hours
  pods          : r.pods = r'.pods
  config        : r.config = r'.config
  variation     : r.variation = r'.variation
  notifications : List.Forall₂ Notification.Moves r.notifications r'.notifications

variable {span : ℤ} {tuning : Tuning} {series series' : Series} {term : Term}
variable {stop stop' : Timestamp} {w w' : Window} {r : Recommendation}

namespace Recommendation

theorem moves_notifications (ns : List Notification) : List.Forall₂ Notification.Moves ns ns :=
  List.forall₂_same.mpr fun _ _ => ⟨rfl, rfl, rfl, fun _ => rfl⟩

theorem moves_notEnoughData : Moves span notEnoughData notEnoughData :=
  ⟨.none, .none, rfl, rfl, rfl, rfl, moves_notifications _⟩

theorem moves_calculationFailed (e e' : EvaluationError) :
    Moves span (calculationFailed e) (calculationFailed e') :=
  ⟨.none, .none, rfl, rfl, rfl, rfl, .cons ⟨rfl, rfl, rfl, fun h => absurd rfl h⟩ .nil⟩

end Recommendation

namespace DurationBased

theorem current?_eq (h : w.Moves span w') (s : Setting) (res : Resource) :
    current? w w.stop s res = current? w' w'.stop s res := by
  rw [current?, current?, h.get?_eq h.stop]

theorem recommend_moves (h : w.Moves span w') (hr : recommend tuning term w = .ok r) :
    ∃ r', recommend tuning term w' = .ok r' ∧ r.Moves span r' := by
  have hcpu : sizeCpu tuning w = sizeCpu tuning w' := by
    simp only [sizeCpu, cpuUsage, h.values_eq, h.firstUnit_eq]
  have hmemory : sizeMemory tuning w = sizeMemory tuning w' := by
    simp only [sizeMemory, MemorySignals.ofWindow, h.values_eq, h.firstUnit_eq]
  obtain ⟨cpu, hc, memory, hm, rfl⟩ := recommend_eq_ok_iff.mp hr
  refine ⟨_, recommend_eq_ok_iff.mpr ⟨cpu, hcpu ▸ hc, memory, hmemory ▸ hm, rfl⟩, ?_⟩
  refine ⟨.some h.start, .some h.stop, rfl, h.pods_eq, rfl, ?variation, ?notifications⟩
  case variation => simp only [Sizings.recommendation, Sizings.variation, current?_eq h]
  case notifications =>
    simp only [Sizings.recommendation, Sizings.notifications, current?_eq h]
    exact Recommendation.moves_notifications _

theorem evaluate_moves (tuning : Tuning) (term : Term)
    (hs : List.Forall₂ (Series.EntryMoves span) series.entries series'.entries)
    (h : stop.Moves span stop')
    (hi : ∀ t i, (t, i) ∈ series.entries → t.StaysInRange span i.minutes) :
    MovesAs span (Recommendation.Moves span) (evaluate tuning series term stop)
      (evaluate tuning series' term stop') := by
  have hw : (Walk.ofTerm series term stop).Moves span (Walk.ofTerm series' term stop') :=
    Walk.run_moves (Series.untilDesc_moves hs h)
  refine (Walk.start?_moves hw ?range).bind ?_
  case range =>
    intro t i m hreached
    exact hi t i (Series.mem_untilDesc.mp (Walk.mem_of_run_eq_reached hreached)).left
  rintro _ _ (hstart | _)
  case none => exact .ok Recommendation.moves_notEnoughData
  case some =>
    refine (Window.ofSeries_moves hs hstart h).bind fun w w' hm => ?_
    obtain ⟨r, hr⟩ := exists_recommend tuning term hm.ne_nil
    obtain ⟨r', hr', hr''⟩ := recommend_moves hm hr
    rw [hr, hr']
    exact .ok hr''

end DurationBased

namespace CapacityBased

theorem recommend_moves (h : w.Moves span w') (hr : recommend tuning w = .ok r) :
    ∃ r', recommend tuning w' = .ok r' ∧ r.Moves span r' := by
  have hcpu : Demand.cpu tuning w = Demand.cpu tuning w' := by
    simp only [Demand.cpu, Demand.ofWindow, h.values_eq]
  have hmemory : Demand.memory tuning w = Demand.memory tuning w' := by
    simp only [Demand.memory, Demand.ofWindow, h.values_eq]
  obtain ⟨cpu, hc, hr⟩ := bind_eq_ok_iff.mp hr
  obtain ⟨memory, hm, hr⟩ := bind_eq_ok_iff.mp hr
  injection hr with hr
  subst hr
  refine ⟨_, bind_eq_ok_iff.mpr ⟨cpu, hcpu ▸ hc, bind_eq_ok_iff.mpr ⟨memory, hmemory ▸ hm, rfl⟩⟩, ?_⟩
  refine ⟨.some h.start, .some h.stop, ?hours, h.pods_eq, ?config, rfl,
    Recommendation.moves_notifications _⟩
  case hours => simp only [h.totalMinutes_eq]
  case config => simp only [h.firstUnit_eq]

theorem start_moves (h : stop.Moves span stop') (hd : stop.StaysInRange span term.minutes) :
    MovesAs span (Timestamp.Moves span) (start term stop) (start term stop') :=
  -- the days of a term are counted back like the minutes of an interval
  Interval.start_moves (i := .bare term.minutes) h hd

-- The age of the series moves with it, so that it is old enough for a term before and after.
theorem window?_moves (hs : List.Forall₂ (Series.EntryMoves span) series.entries series'.entries)
    (h : stop.Moves span stop') (hd : stop.StaysInRange span term.minutes) :
    MovesAs span (Option.Rel (Window.Moves span)) (window? series term stop)
      (window? series' term stop') := by
  rw [window?, window?]
  rcases eq_of_rel (Series.earliest?_moves hs) with ⟨he, he'⟩ | ⟨t, t', he, he', ht⟩
  case inl =>
    rw [he, he']
    exact .ok .none
  case inr =>
    rw [he, he']
    refine (start_moves h hd).bind fun begin begin' hb => ?_
    simp only [hb.lt_iff ht]
    split
    case isTrue => exact .ok .none
    case isFalse =>
      cases hw : Window.ofSeries series begin stop <;> cases hw' : Window.ofSeries series' begin' stop' <;>
        cases hw ▸ hw' ▸ Window.ofSeries_moves hs hb h
      case ok.ok h => exact .ok (.some h)
      case error.error h =>
        cases h
        case emptyWindow => exact .ok .none
        case invalidAggregate h => exact .error (.invalidAggregate _ _ _ h)
        case invalidDuration h => exact .error (.invalidDuration _ h)
        case windowOutOfRange h => exact .error (.windowOutOfRange _ h)

theorem evaluate_moves (tuning : Tuning) (term : Term)
    (hs : List.Forall₂ (Series.EntryMoves span) series.entries series'.entries)
    (h : stop.Moves span stop') (hd : stop.StaysInRange span term.minutes) :
    MovesAs span (Recommendation.Moves span) (evaluate tuning series term stop)
      (evaluate tuning series' term stop') := by
  refine (window?_moves hs h hd).bind ?_
  rintro _ _ (hm | _)
  case none => exact .ok Recommendation.moves_notEnoughData
  case some =>
    obtain ⟨r, hr⟩ := exists_recommend tuning hm.ne_nil
    obtain ⟨r', hr', hr''⟩ := recommend_moves hm hr
    simp only [hr, hr']
    exact .ok hr''

end CapacityBased

namespace Engine

variable {engine : Engine} {label : String}

theorem recommend_shift (engine : Engine) (hl : ∀ t ∈ stop :: series.keys, ¬t.IsLeap)
    (hs : series.shift? span = some series') (h : stop.addNanos? span = some stop')
    (hi : engine.kind = .durationBased →
      ∀ t i, (t, i) ∈ series.entries → t.StaysInRange span i.minutes)
    (hd : engine.kind = .capacityBased →
      ∀ term ∈ engine.policy.terms, stop.StaysInRange span term.minutes) :
    ∀ label, Option.Rel (Recommendation.Moves span)
      ((engine.recommend series stop).get? label) ((engine.recommend series' stop').get? label) := by
  intro label
  have ⟨hl, hls⟩ := List.forall_mem_cons.mp hl
  have hs := Series.moves_of_shift? hls hs
  have h : stop.Moves span stop' := Timestamp.moves_iff.mpr ⟨hl, h⟩
  rw [get?_recommend_eq, get?_recommend_eq]
  cases hlast : engine.policy.last? label
  case none => exact .none
  case some term =>
    have hterm : term ∈ engine.policy.terms :=
      List.mem_reverse.mp (List.mem_of_find?_eq_some hlast)
    have hev : MovesAs span (Recommendation.Moves span) (engine.evaluate series term stop)
        (engine.evaluate series' term stop') := by
      cases hk : engine.kind
      case durationBased =>
        rw [evaluate_durationBased hk, evaluate_durationBased hk]
        exact DurationBased.evaluate_moves _ _ hs h (hi hk)
      case capacityBased =>
        rw [evaluate_capacityBased hk, evaluate_capacityBased hk]
        exact CapacityBased.evaluate_moves _ _ hs h (hd hk term hterm)
    refine .some ?_
    rw [outcome, outcome]
    generalize engine.evaluate series term stop = x, engine.evaluate series' term stop' = y at hev ⊢
    cases hev
    case error => exact Recommendation.moves_calculationFailed _ _
    case ok hr => exact hr

section LastYear

-- One hour of data, moved over the turn of a year.

def hourBack : ℤ := -3600 * 1000000000

def earlierSeries : Series :=
  SortedMap.ofList [(hourBefore, measuredHour)]

theorem addNanos?_hourBack : (default : Timestamp).addNanos? hourBack = some hourBefore := by
  decide +kernel

theorem shift?_measuredSeries : measuredSeries.shift? hourBack = some earlierSeries := by
  have he : measuredSeries.entries = [(default, measuredHour)] := rfl
  simp [Series.shift?, he, addNanos?_hourBack, earlierSeries]

theorem staysInRange_hourBack {minutes : Float}
    (h : ((default : Timestamp).minutesBefore? minutes).isSome = (hourBefore.minutesBefore? minutes).isSome) :
    (default : Timestamp).StaysInRange hourBack minutes := by
  intro t' ht'
  obtain rfl := Option.some.inj (addNanos?_hourBack.symm.trans ht')
  exact h

theorem recommend_shift_measuredSeries :
    (∀ t ∈ default :: measuredSeries.keys, ¬t.IsLeap) ∧
    measuredSeries.shift? hourBack = some earlierSeries ∧
    (default : Timestamp).addNanos? hourBack = some hourBefore ∧
    (∀ t i, (t, i) ∈ measuredSeries.entries → t.StaysInRange hourBack i.minutes) ∧
    (∀ term ∈ Policy.standard.terms, (default : Timestamp).StaysInRange hourBack term.minutes) ∧
    ∀ kind, ∃ r r', ((standard kind).recommend measuredSeries default).get? "short_term" = some r ∧
      ((standard kind).recommend earlierSeries hourBefore).get? "short_term" = some r' ∧
      r.start.isSome ∧ r.Moves hourBack r' := by
  have hl : ∀ t ∈ default :: measuredSeries.keys, ¬t.IsLeap := by
    have : ∀ t ∈ default :: measuredSeries.keys, t.nanos < Timestamp.nanosPerSecond := by decide +kernel
    exact fun t ht => not_le.mpr (this t ht)
  have hi : ∀ t i, (t, i) ∈ measuredSeries.entries → t.StaysInRange hourBack i.minutes := by
    intro t i hm
    obtain ⟨rfl, rfl⟩ := Prod.mk.inj (List.mem_singleton.mp hm)
    exact staysInRange_hourBack (by decide +kernel)
  have hd : ∀ term ∈ Policy.standard.terms, (default : Timestamp).StaysInRange hourBack term.minutes := by
    have : ∀ term ∈ Policy.standard.terms, ((default : Timestamp).minutesBefore? term.minutes).isSome =
        (hourBefore.minutesBefore? term.minutes).isSome := by decide +kernel
    exact fun term ht => staysInRange_hourBack (this term ht)
  refine ⟨hl, shift?_measuredSeries, addNanos?_hourBack, hi, hd, fun kind => ?_⟩
  have hr : (((standard kind).recommend measuredSeries default).get? "short_term").any
      fun r => r.start.isSome := by
    cases kind <;> decide +kernel
  obtain ⟨r, hr, hs⟩ := Option.any_eq_true _ _ |>.mp hr
  have hm := recommend_shift (standard kind) hl shift?_measuredSeries addNanos?_hourBack (fun _ => hi)
    (fun _ => hd) "short_term"
  rw [hr] at hm
  obtain ⟨hn, -⟩ | ⟨r, r', h, hr', hm⟩ := eq_of_rel hm
  case inl => cases hn
  case inr =>
    obtain rfl := Option.some.inj h
    exact ⟨_, r', hr, hr', hs, hm⟩

end LastYear

end Engine

end ContainerSizing
