import ContainerSizing.Event
import ContainerSizing.Recommendation.Basic
import ContainerSizing.Tuning
import ContainerSizing.Window

namespace ContainerSizing.CapacityBased

open Statistics

-- What a resource calls for: a request, and a limit.
structure Demand where
  capacity : Float
  most : Float

namespace Demand

-- `used` tells what all pods of an interval use, `peak` what one of them uses at most, and the total
-- and the average of `metric` how many there are.
def ofWindow (tuning : Tuning) (w : Window) (used peak : Interval → Float) (metric : Metric) :
    Except EvaluationError Demand := do
  let capacity ← percentile tuning.capacityPercentile (w.values used)
  let peak ← largest (w.values peak)
  let pods ← largest (w.values fun i => ratio (i.value metric .total) (i.value metric .average))
  pure ⟨capacity, peak * pods⟩

def cpu (tuning : Tuning) (w : Window) : Except EvaluationError Demand :=
  ofWindow tuning w (fun i => i.value .cpuUsage .total + i.value .cpuThrottle .total)
    (fun i => i.value .cpuUsage .maximum + i.value .cpuThrottle .maximum) .cpuUsage

def memory (tuning : Tuning) (w : Window) : Except EvaluationError Demand :=
  ofWindow tuning w (fun i => i.value .memoryRss .total)
    (fun i => i.value .memoryUsage .maximum) .memoryUsage

def isNone (d : Demand) (zero : Float) : Bool :=
  d.capacity ≤ zero && d.most ≤ zero

end Demand

def setPositive (a : Allocation) (s : Setting) (r : Resource) (amount : Float) (unit : String) :
    Allocation :=
  if amount > 0.0 then a.set s r ⟨amount, unit⟩ else a

-- Places the request and the limit of one resource.
def place (a : Allocation) (r : Resource) (d : Demand) (unit : String) : Allocation :=
  setPositive (setPositive a .requests r d.capacity unit) .limits r d.most unit

-- The recommendation for a known window.
def recommend (tuning : Tuning) (w : Window) : Except EvaluationError Recommendation := do
  let cpu ← Demand.cpu tuning w
  let memory ← Demand.memory tuning w
  let noCpu := cpu.isNone tuning.zeroCpu
  let noMemory := memory.isNone 0.0
  let config := if noCpu then ∅ else place ∅ .cpu cpu (w.firstUnit [.cpuUsage])
  let config :=
    if noMemory then config
    else place config .memory memory (w.firstUnit [.memoryUsage, .memoryRss])
  pure
    { start := some w.start
      stop := some w.stop
      hours := w.totalMinutes / 60.0
      pods := w.pods
      config := config
      notifications :=
        (if noCpu then [.ofKind .cpuRecordsAreZero] else []) ++
          if noMemory then [.ofKind .memoryRecordsAreZero] else [] }

-- The start of a term's window: its days counted back from `stop`.
def start (term : Term) (stop : Timestamp) : Except EvaluationError Timestamp :=
  match stop.minutesBefore? term.minutes with
  | some t => .ok t
  | none => .error (.windowOutOfRange stop term.minutes)

-- The window of a term, if the series is old enough for it. A window of one day is always tried. A
-- window without intervals counts as too little data.
def window? (series : Series) (term : Term) (stop : Timestamp) :
    Except EvaluationError (Option Window) :=
  match series.earliest? with
  | none => .ok none
  | some earliest => do
    let start ← start term stop
    if start < earliest ∧ term.days ≠ 1 then pure none
    else
      match Window.ofSeries series start stop with
      | .ok w => pure (some w)
      | .error (.emptyWindow ..) => pure none
      | .error e => throw e

def evaluate (tuning : Tuning) (series : Series) (term : Term) (stop : Timestamp) :
    Except EvaluationError Recommendation := do
  match ← window? series term stop with
  | none => pure .notEnoughData
  | some w => recommend tuning w

-- What the evaluation of a term logs.
def events (tuning : Tuning) (series : Series) (term : Term) (stop : Timestamp) : List Event :=
  match window? series term stop with
  | .ok (some w) =>
    match Demand.cpu tuning w, Demand.memory tuning w with
    | .ok cpu, .ok memory =>
      [⟨.debug, "Capacity candidates",
        [("sub_category", .text term.label), ("cpu_capacity", .number cpu.capacity),
          ("cpu_max", .number cpu.most), ("memory_capacity", .number memory.capacity),
          ("memory_max", .number memory.most)]⟩]
    | _, _ => []
  | _ => []

end ContainerSizing.CapacityBased
