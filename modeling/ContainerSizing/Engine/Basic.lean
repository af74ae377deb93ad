import ContainerSizing.Engine.CapacityBased
import ContainerSizing.Engine.DurationBased
import ContainerSizing.Text.Blank

namespace ContainerSizing

inductive EngineKind where
  | durationBased
  | capacityBased
deriving DecidableEq, Repr, Inhabited

namespace EngineKind

def key : EngineKind → String
  | durationBased => "duration_based"
  | capacityBased => "capacity_based"

def name : EngineKind → String
  | durationBased => "Duration Based"
  | capacityBased => "Capacity Based"

-- The spelling of a key does not depend on blanks around it, on case, or on dashes.
def spelling (key : String) : String :=
  (Text.lower (Text.trim key)).map fun c => if c = '-' then '_' else c

def ofKey (key : String) : Except ConfigurationError EngineKind :=
  match spelling key with
  | "duration_based" => .ok durationBased
  | "capacity_based" => .ok capacityBased
  | _ => .error (.unknownEngine key)

theorem spelling_key (kind : EngineKind) : spelling kind.key = kind.key := by
  cases kind <;> decide +kernel

theorem ofKey_key (kind : EngineKind) : ofKey kind.key = .ok kind := by
  rw [ofKey, spelling_key]
  cases kind <;> rfl

end EngineKind

structure Engine where
  kind : EngineKind
  tuning : Tuning
  policy : Policy
deriving DecidableEq

namespace Engine

-- Only a tuning and a policy without faults make an engine; the tuning is looked at first.
def build (kind : EngineKind) (tuning : Tuning) (policy : Policy) :
    Except ConfigurationError Engine :=
  match tuning.fault?, policy.fault? with
  | some e, _ => .error e
  | none, some e => .error e
  | none, none => .ok ⟨kind, tuning, policy⟩

def standard (kind : EngineKind) : Engine :=
  ⟨kind, default, .standard⟩

theorem build_standard (kind : EngineKind) :
    build kind default .standard = .ok (standard kind) := by
  simp [build, Tuning.fault?_standard, Policy.fault?_standard, standard]

-- Minutes in chronological order come to `goal` at some interval; bad durations are skipped.
def collects (goal collected : Float) : List Interval → Bool
  | [] => false
  | i :: rest =>
    if Binary64.isMeasure i.minutes then
      let collected := collected + i.minutes
      collected ≥ goal || collects goal collected rest
    else
      collects goal collected rest

-- The series holds enough data for the least demanding term.
def hasLeastData (engine : Engine) (series : Series) : Bool :=
  match engine.policy.leastBound? with
  | some goal => collects goal 0.0 series.values
  | none => false

def evaluate (engine : Engine) (series : Series) (term : Term) (stop : Timestamp) :
    Except EvaluationError Recommendation :=
  match engine.kind with
  | .durationBased => DurationBased.evaluate engine.tuning series term stop
  | .capacityBased => CapacityBased.evaluate engine.tuning series term stop

-- A failed evaluation becomes a recommendation that says so.
def outcome (engine : Engine) (series : Series) (stop : Timestamp) (term : Term) :
    Recommendation :=
  match engine.evaluate series term stop with
  | .ok r => r
  | .error e => .calculationFailed e

-- One recommendation for each term, by its label.
def recommend (engine : Engine) (series : Series) (stop : Timestamp) : RecommendationSet :=
  .ofList (engine.policy.terms.map fun t => (t.label, engine.outcome series stop t))

def termEvents (engine : Engine) (series : Series) (stop : Timestamp) (term : Term) :
    List Event :=
  let inner :=
    match engine.kind with
    | .durationBased => DurationBased.events engine.tuning series term stop
    | .capacityBased => CapacityBased.events engine.tuning series term stop
  match engine.evaluate series term stop with
  | .ok _ => inner
  | .error e =>
    inner ++ [⟨.warn, "Failed to evaluate sub-category",
      [("engine", .text engine.kind.name), ("sub_category", .text term.label),
        ("error", .text e.message)]⟩]

-- What a recommendation logs: every term in the order of the policy, then a summary.
def events (engine : Engine) (series : Series) (stop : Timestamp) : List Event :=
  let terms :=
    match engine.kind with
    | .durationBased => [("sub_categories", .count (engine.recommend series stop).size)]
    | .capacityBased => []
  engine.policy.terms.flatMap (engine.termEvents series stop) ++
    [⟨.info, "Generated recommendations",
      [("engine", .text engine.kind.name), ("end_time", .text stop.messageText),
        ("intervals", .count series.size)] ++ terms⟩]

end Engine

end ContainerSizing
