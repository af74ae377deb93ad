import ContainerSizing.Event
import ContainerSizing.Recommendation.Basic
import ContainerSizing.Tuning
import ContainerSizing.Window

namespace ContainerSizing.DurationBased

open Binary64 Statistics

-- The maximum where there is one, and never less than the average.
def peak (i : Interval) (m : Metric) : Float :=
  let average := i.value m .average
  let maximum := i.value m .maximum
  if maximum > 0.0 then larger maximum average else average

-- Usage and throttling at their peaks.
def peakTotal (i : Interval) : Float :=
  peak i .cpuUsage + peak i .cpuThrottle

-- Usage and throttling spread over the pods; nothing when no pods are known.
def cpuPerPod (i : Interval) : Float :=
  let pods := Window.intervalPods i
  if pods > 0 then
    (i.value .cpuUsage .total + i.value .cpuThrottle .total) / pods.toFloat
  else
    0.0

-- below one core the observed peak is trusted as it is
def cpuCandidate (tuning : Tuning) (i : Interval) : Float :=
  let total := peakTotal i
  if total < tuning.oneCore then total else larger (cpuPerPod i) total

-- A percentile of the candidates, or their maximum when all lie below one core.
def cpuUsage (tuning : Tuning) (w : Window) : Except EvaluationError Float := do
  let candidates := w.values (cpuCandidate tuning)
  let most ← largest candidates
  if most < tuning.oneCore then pure most else percentile tuning.cpuPercentile candidates

-- A quantity, or the kind of notification that explains why there is none.
abbrev Sizing := Except NotificationKind Quantity

def sizeCpu (tuning : Tuning) (w : Window) : Except EvaluationError Sizing := do
  let usage ← cpuUsage tuning w
  if usage == tuning.zeroCpu then pure (.error .cpuRecordsAreZero)
  else if usage ≤ tuning.oneMillicore then pure (.error .cpuRecordsAreIdle)
  else pure (.ok ⟨usage, w.firstUnit [.cpuUsage]⟩)

-- The pods of one interval. Memory tells their number only where CPU does not.
def memoryPods (i : Interval) : UInt32 :=
  let pods := Window.intervalPods i
  if pods = 0 then Statistics.pods (i.value .memoryUsage .total) (i.value .memoryUsage .average)
  else pods

def memoryUsageSignal (i : Interval) : Float :=
  let pods := memoryPods i
  let perPod := if pods > 0 then i.value .memoryUsage .total / pods.toFloat else 0.0
  larger perPod (i.value .memoryUsage .maximum)

-- How far a metric swings inside the interval, rounded up.
def swing (i : Interval) (m : Metric) : Float :=
  ceil (i.value m .maximum - i.value m .minimum)

def memorySpikeSignal (i : Interval) : Float :=
  larger (larger (swing i .memoryUsage) (swing i .memoryRss)) 0.0

-- The memory of a window: its usage and its spikes, each at the percentile of the tuning.
structure MemorySignals where
  usage : Float
  spike : Float

namespace MemorySignals

def ofWindow (tuning : Tuning) (w : Window) : Except EvaluationError MemorySignals := do
  let usage ← percentile tuning.memoryPercentile (w.values memoryUsageSignal)
  let spike ← percentile tuning.memoryPercentile (w.values memorySpikeSignal)
  pure ⟨usage, spike⟩

def buffered (s : MemorySignals) (tuning : Tuning) : Float :=
  s.usage * (1.0 + tuning.usageBuffer)

def spiked (s : MemorySignals) (tuning : Tuning) : Float :=
  s.usage + s.spike * (1.0 + tuning.spikeBuffer)

-- The tighter of the two candidates.
def request (s : MemorySignals) (tuning : Tuning) : Float :=
  smaller (s.buffered tuning) (s.spiked tuning)

end MemorySignals

def sizeMemory (tuning : Tuning) (w : Window) : Except EvaluationError Sizing := do
  let signals ← MemorySignals.ofWindow tuning w
  let request := signals.request tuning
  if request == 0.0 then pure (.error .memoryRecordsAreZero)
  else pure (.ok ⟨request, w.firstUnit [.memoryUsage]⟩)

-- The metric that tells what a container sets.
def settingMetric : Setting → Resource → Metric
  | .requests, .cpu => .cpuRequest
  | .requests, .memory => .memoryRequest
  | .limits, .cpu => .cpuLimit
  | .limits, .memory => .memoryLimit

-- What the container sets in the interval that ends exactly at `t`.
def current? (w : Window) (t : Timestamp) (s : Setting) (r : Resource) : Option Float :=
  (w.get? t).bind fun i => (i.metrics (settingMetric s r)).map Aggregate.average

-- The places of an allocation in the order in which they are explained.
def slots : List (Setting × Resource) :=
  [(.requests, .cpu), (.requests, .memory), (.limits, .cpu), (.limits, .memory)]

theorem mem_slots (s : Setting) (r : Resource) : (s, r) ∈ slots := by
  cases s <;> cases r <;> decide

-- Sizings of both resources; a limit is the request again.
structure Sizings where
  cpu : Sizing
  memory : Sizing

namespace Sizings

def get (z : Sizings) : Resource → Sizing
  | .cpu => z.cpu
  | .memory => z.memory

-- Only amounts above zero are recommended.
def recommended? (z : Sizings) (r : Resource) : Option Quantity :=
  match z.get r with
  | .ok q => if q.amount > 0.0 then some q else none
  | .error _ => none

def config (z : Sizings) : Allocation :=
  slots.foldl (fun a (s, r) =>
    match z.recommended? r with
    | some q => a.set s r q
    | none => a) ∅

-- Positive where the container sets less than is recommended.
def variation (z : Sizings) (w : Window) (t : Timestamp) : Allocation :=
  slots.foldl (fun a (s, r) =>
    match z.recommended? r, current? w t s r with
    | some q, some current => a.set s r ⟨q.amount - current, q.unit⟩
    | _, _ => a) ∅

def reason? : Sizing → List NotificationKind
  | .ok _ => []
  | .error kind => [kind]

def notifications (z : Sizings) (w : Window) (t : Timestamp) : List NotificationKind :=
  reason? z.cpu ++ reason? z.memory ++
    slots.filterMap fun (s, r) => if (current? w t s r).isNone then some (.notSet s r) else none

end Sizings

-- The recommendation for a term whose window is known.
def recommend (tuning : Tuning) (term : Term) (w : Window) :
    Except EvaluationError Recommendation := do
  let cpu ← sizeCpu tuning w
  let memory ← sizeMemory tuning w
  let sizings : Sizings := ⟨cpu, memory⟩
  pure
    { start := some w.start
      stop := some w.stop
      hours := term.hours
      pods := w.pods
      config := sizings.config
      variation := sizings.variation w w.stop
      notifications := (sizings.notifications w w.stop).map .ofKind }

def evaluate (tuning : Tuning) (series : Series) (term : Term) (stop : Timestamp) :
    Except EvaluationError Recommendation := do
  match ← (Walk.ofTerm series term stop).start? with
  | none => pure .notEnoughData
  | some start => recommend tuning term (← Window.ofSeries series start stop)

def walkEvents (term : Term) (stop : Timestamp) (walk : Walk) : List Event :=
  match walk, walk.start? with
  | .reached _ _ minutes, .ok (some start) =>
    [⟨.debug, "Monitoring window selected",
      [("sub_category", .text term.label), ("start", .text start.messageText),
        ("end", .text stop.messageText), ("accumulated_minutes", .number minutes)]⟩]
  | .exhausted minutes, _ =>
    [⟨.debug, "Lower bound not reached, no monitoring window",
      [("sub_category", .text term.label), ("accumulated_minutes", .number minutes),
        ("required_minutes", .number term.leastMinutes)]⟩]
  | _, _ => []

def memoryEvents (tuning : Tuning) (w : Window) : List Event :=
  match MemorySignals.ofWindow tuning w with
  | .ok s =>
    [⟨.debug, "Memory request candidates",
      [("usage", .number s.usage), ("spike", .number s.spike),
        ("usage_buffered", .number (s.buffered tuning)),
        ("spike_candidate", .number (s.spiked tuning))]⟩]
  | .error _ => []

def windowEvents (tuning : Tuning) (term : Term) (w : Window) : List Event :=
  match recommend tuning term w with
  | .ok r =>
    memoryEvents tuning w ++
      [⟨.debug, "Sub-category evaluated",
        [("sub_category", .text term.label), ("intervals", .count w.size),
          ("pods", .count r.pods.toNat), ("notifications", .count r.notifications.length)]⟩]
  | .error _ => []

-- What the evaluation of a term logs, in order.
def events (tuning : Tuning) (series : Series) (term : Term) (stop : Timestamp) : List Event :=
  let walk := Walk.ofTerm series term stop
  walkEvents term stop walk ++
    match walk.start? with
    | .ok (some start) =>
      match Window.ofSeries series start stop with
      | .ok w => windowEvents tuning term w
      | .error _ => []
    | _ => []

end ContainerSizing.DurationBased
