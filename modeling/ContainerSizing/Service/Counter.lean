import ContainerSizing.Decimal.Text
import ContainerSizing.Recommendation.Basic

namespace ContainerSizing

inductive Counter where
  | evaluations
  | evaluationsWithin (seconds : Float)
  | recommendations (engine label : String)
  | notifications (kind : NotificationKind)
  | evaluationFailures
  | insufficientData
deriving DecidableEq

namespace Counter

-- Bounds in seconds under which evaluations are counted apart; each holds all below it.
def latencyBounds : List Float :=
  [0.0001, 0.0005, 0.001, 0.0025, 0.005, 0.01, 0.025, 0.05, 0.1, 0.25, 0.5, 1.0, 2.5]

def ofLatency (seconds : Float) : List Counter :=
  evaluations :: (latencyBounds.filter fun bound => seconds ≤ bound).map evaluationsWithin

-- A notification counts as a failure by its severity, whatever its kind.
def ofNotification (n : Notification) : List Counter :=
  notifications n.kind :: if n.severity = .error then [evaluationFailures] else []

def ofRecommendations (engine : String) (rs : RecommendationSet) : List Counter :=
  rs.entries.flatMap fun (label, r) =>
    recommendations engine label :: r.notifications.flatMap ofNotification

-- Every counter that went up, with how often it did.
def totals (cs : List Counter) : List (Counter × Nat) :=
  cs.eraseDups.map fun c => (c, cs.count c)

def name : Counter → String
  | evaluations => "evaluation_latency_seconds_count"
  | evaluationsWithin seconds => "evaluation_latency_seconds_le_" ++ Decimal.plain seconds
  | recommendations engine label =>
    "recommendations_total\x7bengine=" ++ engine ++ ",sub_category=" ++ label ++ "\x7d"
  | notifications kind => "notifications_total\x7bkind=" ++ kind.name ++ "\x7d"
  | evaluationFailures => "evaluation_failures_total\x7b\x7d"
  | insufficientData => "insufficient_data_total\x7b\x7d"

end Counter

end ContainerSizing
