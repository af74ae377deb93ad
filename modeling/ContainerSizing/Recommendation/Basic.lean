import ContainerSizing.EvaluationError
import ContainerSizing.Recommendation.Allocation
import ContainerSizing.SortedMap
import ContainerSizing.Timestamp.Parser

namespace ContainerSizing

-- A missing value is left out and explained by a notification, never written as zero.
structure Recommendation where
  start : Option Timestamp := none
  stop : Option Timestamp := none
  hours : Float := 0.0
  pods : UInt32 := 0
  config : Allocation := ∅
  variation : Allocation := ∅
  notifications : List Notification := []
deriving DecidableEq, Inhabited

-- Recommendations by the labels of their terms.
abbrev RecommendationSet := SortedMap String Recommendation

namespace Recommendation

def ofWindow (start stop : Timestamp) : Recommendation :=
  { start := some start, stop := some stop }

-- Nothing but the notification that there is too little data.
def notEnoughData : Recommendation :=
  { notifications := [.ofKind .notEnoughData] }

-- Nothing but the notification that the evaluation failed.
def calculationFailed (e : EvaluationError) : Recommendation :=
  let message := NotificationKind.calculationFailed.usualMessage ++ ": " ++ e.message
  { notifications := [.withMessage .calculationFailed message] }

def notify (r : Recommendation) (n : Notification) : Recommendation :=
  { r with notifications := r.notifications ++ [n] }

def has (r : Recommendation) (kind : NotificationKind) : Bool :=
  r.notifications.any fun n => n.kind = kind

-- Instants that are not known and groups without content are left out.
def toJson (r : Recommendation) : Json :=
  let instant (name : String) (t : Option Timestamp) :=
    t.toList.map fun t => (name, Json.text t.isoText)
  let allocation (name : String) (a : Allocation) :=
    if a.isEmpty then [] else [(name, a.toJson)]
  .record (instant "monitoring_start_time" r.start ++ instant "monitoring_end_time" r.stop ++
    [("duration_in_hours", .float r.hours), ("pods_count", .natural r.pods.toNat)] ++
    allocation "config" r.config ++ allocation "variation" r.variation ++
    if r.notifications.isEmpty then []
    else [("notifications", .array (r.notifications.map Notification.toJson))])

def reader [Json.Conversion] : Reader Recommendation :=
  let instant := Reader.nullable (Reader.parsed Timestamp.ofText?)
  Reader.record ["monitoring_start_time", "monitoring_end_time", "duration_in_hours", "pods_count",
      "config", "variation", "notifications"] fun ms =>
    Recommendation.mk <$> ms.optional "monitoring_start_time" instant none
      <*> ms.optional "monitoring_end_time" instant none
      <*> ms.optional "duration_in_hours" Reader.number 0.0
      <*> ms.optional "pods_count" Reader.uint32 0
      <*> ms.optional "config" Allocation.reader ∅
      <*> ms.optional "variation" Allocation.reader ∅
      <*> ms.optional "notifications" (Reader.list Notification.reader) []

end Recommendation

namespace RecommendationSet

def toJson (rs : RecommendationSet) : Json :=
  .record (rs.entries.map fun (label, r) => (label, r.toJson))

def reader [Json.Conversion] : Reader RecommendationSet := fun v =>
  SortedMap.ofList <$> Reader.mapping some Recommendation.reader v

end RecommendationSet

end ContainerSizing
