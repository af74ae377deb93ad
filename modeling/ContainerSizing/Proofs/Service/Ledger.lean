import ContainerSizing.Proofs.Service.Counter
import ContainerSizing.Service.Router
import Mathlib.Algebra.BigOperators.Group.List.Basic

namespace ContainerSizing

-- An event that says that a recommendation failed.
def Event.IsFailure (e : Event) : Prop :=
  ("event", .text "recommendation_failed") ∈ e.fields

instance (e : Event) : Decidable e.IsFailure :=
  inferInstanceAs (Decidable (_ ∈ _))

theorem Event.IsNameless.not_isFailure {e : Event} (h : e.IsNameless) : ¬e.IsFailure :=
  fun hf => h _ hf rfl

namespace Journal

variable {j : Journal} {container engine : String} {rs : RecommendationSet} {elapsed : Float}

theorem countP_isFailure_generated :
    ((j.generated container engine rs elapsed).countP fun e => e.IsFailure) = 0 := by
  rw [List.countP_eq_zero]
  intro e he
  obtain ⟨_, _, rfl⟩ := List.mem_map.mp he
  simp [Event.IsFailure, entry]

-- One failure is logged for each recommendation that failed.
theorem countP_isFailure_failures (h : ∀ e ∈ rs.entries, e.2.IsReport) :
    ((j.failures container rs).countP fun e => e.IsFailure) =
      rs.entries.countP fun e => e.2.has .calculationFailed := by
  rw [failures, List.countP_flatMap, ← Counter.sum_map_ite_one]
  congr 1
  apply List.map_congr_left
  intro e he
  have hf (label message : String) : (j.failed container label message).IsFailure := by
    simp [Event.IsFailure, failed, entry]
  rw [← (h e he).countP_failures, List.countP_eq_length_filter]
  simp [List.countP_map, Function.comp_def, hf]

end Journal

namespace Service

variable {s : Service} {clock clock' : Clock} {r : Request} {order : Order} {c : Counter}

section Orders

-- A request in the place where recommendations are ordered.
def IsForRecommendations (r : Request) : Prop :=
  Route.ofPath? (path r.target) = some .recommendations ∧ r.method = "POST"

instance : Decidable (IsForRecommendations r) :=
  inferInstanceAs (Decidable (_ ∧ _))

-- The order that a request places, if its body holds one.
def order? [Json.Conversion] (r : Request) : Option Order :=
  if IsForRecommendations r then (readBody Order.reader r).toOption else none

-- The end of the time that an order asks about.
def Order.stopAt (order : Order) (now : Timestamp) : Timestamp :=
  (order.stop <|> order.series.latest?).getD now

-- What an order is answered with.
def recommendations (s : Service) (clock : Clock) (order : Order) : RecommendationSet :=
  s.engine.recommend order.series (order.stopAt clock.now)

-- The clock only matters to orders without intervals, and those are told so at any time.
theorem recommendations_eq : s.recommendations clock order = s.recommendations clock' order := by
  rw [recommendations, recommendations, Order.stopAt, Order.stopAt]
  cases hs : order.stop
  case some => rfl
  case none =>
    cases hl : order.series.latest?
    case some => rfl
    case none =>
      have he : order.series.entries = [] := by simpa [Series.latest?, SortedMap.keys] using hl
      exact Engine.recommend_of_empty he

theorem readBody_error {α : Type} {read : Reader α} {status : Nat}
    (h : readBody read r = .error status) : status ∈ [400, 413, 415, 422] := by
  rw [readBody] at h
  split at h
  case isTrue => cases h; decide
  case isFalse =>
    split at h
    case isTrue => cases h; decide
    case isFalse =>
      simp only at h
      split at h <;> cases h <;> decide

variable [Json.Conversion]

theorem order?_eq_some_iff :
    order? r = some order ↔ IsForRecommendations r ∧ readBody Order.reader r = .ok order := by
  rw [order?]
  cases readBody Order.reader r <;> simp [Except.toOption]

theorem handle_of_order? (h : order? r = some order) : s.handle clock r = s.recommend clock order := by
  have ⟨⟨hroute, hmethod⟩, hbody⟩ := order?_eq_some_iff.mp h
  simp [handle, hroute, hmethod, Route.allows, serve, hbody]

theorem handle_of_order?_eq_none (s : Service) (clock : Clock) (h : order? r = none)
    (hr : IsForRecommendations r) :
    ∃ status ∈ [400, 413, 415, 422], s.handle clock r = refuse status := by
  have ⟨hroute, hmethod⟩ := hr
  cases hbody : readBody Order.reader r
  case ok order =>
    rw [order?_eq_some_iff.mpr ⟨hr, hbody⟩] at h
    cases h
  case error status =>
    refine ⟨status, readBody_error hbody, ?_⟩
    simp [handle, hroute, hmethod, Route.allows, serve, hbody]

-- Orders are the requests for recommendations that succeed.
theorem isSome_order?_iff :
    (order? r).isSome ↔ IsForRecommendations r ∧ (s.handle clock r).response.status = 200 := by
  cases h : order? r
  case some order =>
    have hr := (order?_eq_some_iff.mp h).left
    rw [handle_of_order? h]
    exact iff_of_true rfl ⟨hr, rfl⟩
  case none =>
    refine iff_of_false nofun ?_
    intro ⟨hr, hs⟩
    have ⟨status, hm, he⟩ := handle_of_order?_eq_none s clock h hr
    rw [he] at hs
    subst hs
    simp at hm

-- The other routes leave no trace.
theorem serve_silent (s : Service) (clock : Clock) (r : Request) {route : Route}
    (h : route ≠ .recommendations) :
    (s.serve clock r route).counters = [] ∧ (s.serve clock r route).events = [] := by
  cases route
  case recommendations => exact absurd rfl h
  case health | metrics => exact ⟨rfl, rfl⟩
  case minimumData =>
    rw [serve]
    cases readBody questionReader r <;> exact ⟨rfl, rfl⟩

theorem handle_silent (s : Service) (clock : Clock) (h : order? r = none) :
    (s.handle clock r).counters = [] ∧ (s.handle clock r).events = [] := by
  by_cases hr : IsForRecommendations r
  case pos =>
    have ⟨_, _, he⟩ := handle_of_order?_eq_none s clock h hr
    rw [he]
    exact ⟨rfl, rfl⟩
  case neg =>
    rw [handle]
    split
    case h_1 => exact ⟨rfl, rfl⟩
    case h_2 route hroute =>
      split
      case isFalse => exact ⟨rfl, rfl⟩
      case isTrue ha =>
        have hne : route ≠ .recommendations := by
          rintro rfl
          exact hr ⟨hroute, of_decide_eq_true ha⟩
        have hs := serve_silent s clock r hne
        simp only
        split <;> exact hs

end Orders

section Gains

-- What an order adds to each counter.
def orderGain (s : Service) (clock : Clock) (order : Order) : Counter → ℕ
  | .evaluations => 1
  | .evaluationsWithin bound =>
    Counter.latencyBounds.countP fun b => clock.elapsed ≤ b ∧ b = bound
  | .recommendations engine label =>
    if engine = s.engine.kind.key ∧ label ∈ s.engine.policy.labels then 1 else 0
  | .notifications kind => ((s.recommendations clock order).entries.map fun e =>
      e.2.notifications.countP fun n => n.kind = kind).sum
  | .evaluationFailures =>
    (s.recommendations clock order).entries.countP fun e => e.2.has .calculationFailed
  | .insufficientData => if ¬s.engine.hasLeastData order.series then 1 else 0

-- An engine that has passed the checks of its tuning and its policy.
variable (ht : s.engine.tuning.fault? = none) (hp : s.engine.policy.fault? = none)

include ht in
theorem isReport_of_mem_recommendations (clock : Clock) (order : Order) :
    ∀ e ∈ (s.recommendations clock order).entries, e.2.IsReport :=
  fun _ he => Engine.isReport_of_mem ht he

include ht hp in
theorem count_recommend : (s.recommend clock order).counters.count c = s.orderGain clock order c := by
  have hreport := isReport_of_mem_recommendations ht clock order
  have hkeys {label : String} : label ∈ (s.recommendations clock order).keys ↔
      label ∈ s.engine.policy.labels :=
    (Engine.keys_recommend (Policy.hasDistinctLabels_of_fault? hp)).mem_iff
  have hc : (s.recommend clock order).counters =
      (if s.engine.hasLeastData order.series then [] else [.insufficientData]) ++
        Counter.ofLatency clock.elapsed ++
        Counter.ofRecommendations s.engine.kind.key (s.recommendations clock order) := rfl
  have hshort : (if s.engine.hasLeastData order.series then [] else [Counter.insufficientData]).count c =
      if c = .insufficientData ∧ ¬s.engine.hasLeastData order.series then 1 else 0 := by
    cases s.engine.hasLeastData order.series <;> cases c <;> simp
  rw [hc, List.count_append, List.count_append, hshort]
  cases c
  case evaluations =>
    rw [Counter.count_ofRecommendations_eq_zero (by simp) (by simp) (by simp)]
    simp [orderGain, Counter.count_evaluations_ofLatency]
  case evaluationsWithin bound =>
    rw [Counter.count_ofRecommendations_eq_zero (by simp) (by simp) (by simp)]
    simp [orderGain, Counter.count_evaluationsWithin_ofLatency]
  case insufficientData =>
    rw [Counter.count_ofRecommendations_eq_zero (by simp) (by simp) (by simp)]
    simp [orderGain, Counter.count_ofLatency_eq_zero]
  case recommendations engine label =>
    simp [orderGain, Counter.count_ofLatency_eq_zero, Counter.count_recommendations, hkeys]
  case notifications kind =>
    simp [orderGain, Counter.count_ofLatency_eq_zero, Counter.count_notifications]
  case evaluationFailures =>
    simp [orderGain, Counter.count_ofLatency_eq_zero, Counter.count_evaluationFailures hreport]

include ht in
theorem countP_failures :
    ((s.recommend clock order).events.countP fun e => e.IsFailure) =
      s.orderGain clock order .evaluationFailures := by
  have hreport := isReport_of_mem_recommendations ht clock order
  have hev : (s.recommend clock order).events =
      (if s.engine.hasLeastData order.series then []
        else [s.journal.insufficientData (order.container.getD "unnamed") order.series.size
          order.series.totalMinutes]) ++
        s.engine.events order.series (order.stopAt clock.now) ++
        s.journal.failures (order.container.getD "unnamed") (s.recommendations clock order) ++
        s.journal.generated (order.container.getD "unnamed") s.engine.kind.key
          (s.recommendations clock order) clock.elapsed := rfl
  have hshort (name : String) (size : ℕ) (minutes : Float) :
      (if s.engine.hasLeastData order.series then []
        else [s.journal.insufficientData name size minutes]).countP (fun e => e.IsFailure) = 0 := by
    cases s.engine.hasLeastData order.series <;>
      simp [Event.IsFailure, Journal.insufficientData, Journal.entry]
  have hengine : (s.engine.events order.series (order.stopAt clock.now)).countP
      (fun e => e.IsFailure) = 0 := by
    rw [List.countP_eq_zero]
    exact fun e he hf => (Engine.isNameless_events he).not_isFailure (of_decide_eq_true hf)
  rw [hev, List.countP_append, List.countP_append, List.countP_append, hshort, hengine,
    Journal.countP_isFailure_failures hreport, Journal.countP_isFailure_generated, orderGain]
  simp

end Gains

-- A request and the time at which it comes in.
structure Visit where
  clock : Clock
  request : Request

-- What a service has counted and logged so far.
structure Ledger where
  totals : Counter → ℕ
  events : List Event

namespace Ledger

def blank : Ledger where
  totals _ := 0
  events   := []

def record (l : Ledger) (reply : Reply) : Ledger where
  totals c := l.totals c + reply.counters.count c
  events   := l.events ++ reply.events

-- How often it was logged that a recommendation failed.
def failures (l : Ledger) : ℕ :=
  l.events.countP fun e => e.IsFailure

-- Failures are the same number wherever they are counted.
structure IsBalanced (l : Ledger) : Prop where
  notified : l.totals .evaluationFailures = l.totals (.notifications .calculationFailed)
  logged   : l.failures = l.totals .evaluationFailures

theorem isBalanced_blank : blank.IsBalanced :=
  ⟨rfl, rfl⟩

end Ledger

def step [Json.Conversion] (s : Service) (l : Ledger) (v : Visit) : Ledger :=
  l.record (s.handle v.clock v.request)

def run [Json.Conversion] (s : Service) (l : Ledger) (vs : List Visit) : Ledger :=
  vs.foldl s.step l

-- What a visit adds to each counter.
def gain [Json.Conversion] (s : Service) (v : Visit) (c : Counter) : ℕ :=
  match order? v.request with
  | some order => s.orderGain v.clock order c
  | none       => 0

section Runs

variable [Json.Conversion] {l : Ledger} {v v' : Visit} {vs vs' : List Visit}

theorem step_eq_self (h : order? v.request = none) : s.step l v = l := by
  have ⟨hc, he⟩ := handle_silent s v.clock h
  rw [step, Ledger.record, hc, he, List.append_nil]
  rfl

-- Failures have one severity and one kind, so they are counted alike.
theorem gain_calculationFailed (ht : s.engine.tuning.fault? = none) :
    s.gain v (.notifications .calculationFailed) = s.gain v .evaluationFailures := by
  rw [gain, gain]
  cases order? v.request
  case none => rfl
  case some order =>
    simp only [orderGain]
    rw [← Counter.sum_map_ite_one]
    congr 1
    apply List.map_congr_left
    exact fun e he => (isReport_of_mem_recommendations ht _ _ e he).countP_failures

-- Only the buckets of latencies look at the clock.
theorem gain_eq_of_request (hv : v.request = v'.request) (hc : ∀ bound, c ≠ .evaluationsWithin bound) :
    s.gain v c = s.gain v' c := by
  rw [gain, gain, hv]
  cases order? v'.request
  case none => rfl
  case some order =>
    have hr : s.recommendations v.clock order = s.recommendations v'.clock order := recommendations_eq
    cases c
    case evaluationsWithin bound => exact absurd rfl (hc bound)
    all_goals simp only [orderGain, hr]

section Sound

variable (ht : s.engine.tuning.fault? = none) (hp : s.engine.policy.fault? = none)

include ht hp in
theorem totals_step : (s.step l v).totals c = l.totals c + s.gain v c := by
  cases h : order? v.request
  case none => simp [step_eq_self h, gain, h]
  case some order => simp [step, Ledger.record, handle_of_order? h, count_recommend ht hp, gain, h]

include ht in
theorem failures_step : (s.step l v).failures = l.failures + s.gain v .evaluationFailures := by
  cases h : order? v.request
  case none => simp [step_eq_self h, gain, h]
  case some order =>
    simp [step, Ledger.record, Ledger.failures, handle_of_order? h, countP_failures ht, gain, h]

include ht hp in
theorem totals_run : (s.run l vs).totals c = l.totals c + (vs.map fun v => s.gain v c).sum := by
  rw [run]
  induction vs generalizing l
  case nil => simp
  case cons v vs hi =>
    rw [List.foldl_cons, hi, totals_step ht hp, List.map_cons, List.sum_cons, Nat.add_assoc]

include ht hp in
theorem isBalanced_step (h : l.IsBalanced) : (s.step l v).IsBalanced where
  notified := by rw [totals_step ht hp, totals_step ht hp, h.notified, gain_calculationFailed ht]
  logged   := by rw [failures_step ht, totals_step ht hp, h.logged]

include ht hp in
theorem isBalanced_run (h : l.IsBalanced) : (s.run l vs).IsBalanced := by
  rw [run]
  induction vs generalizing l
  case nil => exact h
  case cons v vs hi => exact hi (isBalanced_step ht hp h)

end Sound

theorem run_conserves {kind : EngineKind} {tuning : Tuning} {policy : Policy}
    (h : Engine.build kind tuning policy = .ok s.engine) (l : Ledger) (vs : List Visit) :
    (∀ v : Visit, (order? v.request).isSome ↔
      IsForRecommendations v.request ∧ (s.handle v.clock v.request).response.status = 200) ∧
    (∀ v : Visit, order? v.request = none → s.step l v = l) ∧
    (∀ (v : Visit) (order : Order), order? v.request = some order →
      (s.handle v.clock v.request).response.content = some (.record
        [("container_name", .text (order.container.getD "unnamed")),
          ("engine", .text s.engine.kind.key),
          ("end_time", .text (order.stopAt v.clock.now).isoText),
          ("recommendations", RecommendationSet.toJson (s.recommendations v.clock order))])) ∧
    (∀ c, (s.run l vs).totals c = l.totals c + (vs.map fun v => s.gain v c).sum) ∧
    (∀ vs', vs'.Perm vs → (s.run l vs').totals = (s.run l vs).totals) ∧
    (∀ vs' c, (vs'.map Visit.request).Perm (vs.map Visit.request) →
      (∀ bound, c ≠ .evaluationsWithin bound) → (s.run l vs').totals c = (s.run l vs).totals c) ∧
    (l.IsBalanced → (s.run l vs).IsBalanced) ∧ (s.run .blank vs).IsBalanced := by
  have ⟨ht, hp, he⟩ := Engine.build_eq_ok_iff.mp h
  have ht : s.engine.tuning.fault? = none := he ▸ ht
  have hp : s.engine.policy.fault? = none := he ▸ hp
  have hrun (vs : List Visit) (c : Counter) :
      (s.run l vs).totals c = l.totals c + (vs.map fun v => s.gain v c).sum := totals_run ht hp
  refine ⟨fun v => isSome_order?_iff, fun v => step_eq_self, ?answer, hrun vs, ?anyOrder, ?anyTime,
    isBalanced_run ht hp, isBalanced_run ht hp Ledger.isBalanced_blank⟩
  case answer =>
    intro v order ho
    rw [handle_of_order? ho]
    rfl
  case anyOrder =>
    intro vs' hperm
    funext c
    rw [hrun, hrun, (hperm.map _).sum_eq]
  case anyTime =>
    intro vs' c hperm hc
    have hgain : (fun v => s.gain v c) = (fun r => s.gain ⟨⟨default, 0.0⟩, r⟩ c) ∘ Visit.request :=
      funext fun v => gain_eq_of_request rfl hc
    rw [hrun, hrun, hgain, ← List.map_map, ← List.map_map, (hperm.map _).sum_eq]

end Runs

section Advisor

attribute [local instance] Json.Conversion.stepwise

-- An order without intervals, one whose interval lasts less than no time, and a body that is no JSON.

def posted (body : String) : Visit :=
  ⟨⟨default, 0.002⟩, ⟨"POST", "/api/v1/recommendations", some "application/json", body⟩⟩

def postedBodies : List Visit :=
  [posted "\x7b\x7d", posted
    "\x7b\"series\":\x7b\"1970-01-01T00:00:00Z\":\x7b\"duration_in_minutes\":-1\x7d\x7d\x7d", posted "?"]

def advisor : Service :=
  ⟨.standard .durationBased, ⟨"advisor"⟩⟩

theorem run_conserves_postedBodies :
    Engine.build .durationBased default .standard = .ok advisor.engine ∧
    (advisor.run .blank postedBodies).totals .evaluations = 2 ∧
    (advisor.run .blank postedBodies).totals (.evaluationsWithin 0.0025) = 2 ∧
    (advisor.run .blank postedBodies).totals (.notifications .notEnoughData) = 3 ∧
    (advisor.run .blank postedBodies).totals .evaluationFailures = 3 ∧
    (advisor.run .blank postedBodies).totals .insufficientData = 2 ∧
    (advisor.run .blank postedBodies).failures = 3 := by
  have hb : Engine.build .durationBased default .standard = .ok advisor.engine :=
    Engine.build_standard .durationBased
  have ⟨_, _, _, htotals, _, _, _, hbalanced⟩ := run_conserves hb .blank postedBodies
  have htotal (c : Counter) (n : ℕ) (h : (postedBodies.map fun v => advisor.gain v c).sum = n) :
      (advisor.run .blank postedBodies).totals c = n :=
    (htotals c).trans ((Nat.zero_add _).trans h)
  have hfailures := htotal .evaluationFailures 3 (by decide +kernel)
  refine ⟨hb, htotal _ _ ?_, htotal _ _ ?_, htotal _ _ ?_, hfailures, htotal _ _ ?_,
    hbalanced.logged.trans hfailures⟩
  all_goals decide +kernel

end Advisor

end Service

end ContainerSizing
