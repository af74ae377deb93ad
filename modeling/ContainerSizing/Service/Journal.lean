import ContainerSizing.Event
import ContainerSizing.Recommendation.Basic

namespace ContainerSizing

structure Journal where
  name : String

namespace Journal

def entry (j : Journal) (level : Level) (event message : String)
    (fields : List (String × FieldValue)) : Event :=
  ⟨level, message, [("event", .text event), ("instance", .text j.name)] ++ fields⟩

def started (j : Journal) (version engine : String) : Event :=
  j.entry .info "service_started" "Rightsize advisor started"
    [("service_version", .text version), ("engine", .text engine)]

def stopped (j : Journal) (reason : String) : Event :=
  j.entry .info "service_shutdown" "Rightsize advisor shutting down" [("reason", .text reason)]

def insufficientData (j : Journal) (container : String) (intervals : Nat) (minutes : Float) :
    Event :=
  j.entry .info "insufficient_data" "Not enough data to generate recommendations"
    [("container", .text container), ("intervals", .count intervals),
      ("observed_minutes", .number minutes)]

def failed (j : Journal) (container label reason : String) : Event :=
  j.entry .warn "recommendation_failed" "Recommendation calculation failed"
    [("container", .text container), ("sub_category", .text label), ("reason", .text reason)]

-- Codes in brackets, as in `[1, 2]`.
def codesText (ns : List Notification) : String :=
  "[" ++ ", ".intercalate (ns.map fun n => toString n.code) ++ "]"

-- One event for each recommendation.
def generated (j : Journal) (container engine : String) (rs : RecommendationSet)
    (elapsed : Float) : List Event :=
  rs.entries.map fun (label, r) =>
    j.entry .info "recommendation_generated" "Generated recommendation"
      [("container", .text container), ("engine", .text engine), ("sub_category", .text label),
        ("pods_count", .count r.pods.toNat), ("duration_in_hours", .number r.hours),
        ("notification_codes", .text (codesText r.notifications)),
        ("elapsed_secs", .number elapsed)]

-- One event for each notification that an evaluation failed.
def failures (j : Journal) (container : String) (rs : RecommendationSet) : List Event :=
  rs.entries.flatMap fun (label, r) =>
    (r.notifications.filter fun n => n.kind = .calculationFailed).map fun n =>
      j.failed container label n.message

end Journal

end ContainerSizing
