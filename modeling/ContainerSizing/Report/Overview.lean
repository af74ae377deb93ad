import ContainerSizing.Policy
import ContainerSizing.Recommendation.Basic
import ContainerSizing.Report.Amount
import ContainerSizing.Report.Table

namespace ContainerSizing.Report

-- The terminal's escape sequence for the colour of a severity.
def colour : Severity → String
  | .info => "\x1b[34m"
  | .notice => "\x1b[36m"
  | .warning => "\x1b[33m"
  | .error | .critical => "\x1b[31m"

def notificationText (coloured : Bool) (n : Notification) : String :=
  let text := n.kind.name ++ " (" ++ toString n.code ++ ")"
  if coloured then colour n.severity ++ text ++ "\x1b[0m" else text

-- Start and stop of a window, if both are known.
def windowText (r : Recommendation) : String :=
  match r.start, r.stop with
  | some start, some stop => start.shortText ++ " → " ++ stop.shortText
  | _, _ => "-"

def recommendationRow (label : String) (r : Recommendation) : List String :=
  [label, windowText r,
    if r.pods > 0 then toString r.pods else "-",
    quantityText cpuText (r.config.get? .requests .cpu),
    quantityText cpuText (r.config.get? .limits .cpu),
    quantityText memoryText (r.config.get? .requests .memory),
    quantityText memoryText (r.config.get? .limits .memory),
    "\n".intercalate (r.notifications.map (notificationText false))]

def recommendationTable (rs : RecommendationSet) : Table where
  header :=
    ["Term", "Window", "Pods", "CPU Req", "CPU Lim", "Mem Req", "Mem Lim", "Notifications"]
  rows := rs.entries.map fun (label, r) => recommendationRow label r

-- Whole days, hours with one decimal, or minutes.
def minutesText (minutes : Float) : String :=
  let hours := minutes / 60.0
  if hours ≥ 24.0 && Binary64.isMultipleOf 24 hours then Decimal.plain (hours / 24.0) ++ "d"
  else if hours ≥ 1.0 then Decimal.fixed 1 hours ++ "h"
  else Decimal.plain minutes ++ "m"

def policyTable (p : Policy) : Table where
  header := ["Term", "Duration", "Min Data"]
  rows := p.terms.map fun t => [t.label, toString t.days ++ "d", minutesText t.leastMinutes]

end ContainerSizing.Report
