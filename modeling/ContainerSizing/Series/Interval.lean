import ContainerSizing.EvaluationError

namespace ContainerSizing

structure Interval where
  minutes : Float
  metrics : Metric → Option Aggregate

namespace Interval

-- An interval in which nothing was measured.
def bare (minutes : Float) : Interval :=
  ⟨minutes, fun _ => none⟩

def withMetric (i : Interval) (metric : Metric) (a : Aggregate) : Interval :=
  { i with metrics := fun m => if m = metric then some a else i.metrics m }

-- A metric that was not measured reads as zero.
def value (i : Interval) (metric : Metric) (statistic : Statistic) : Float :=
  match i.metrics metric with
  | some a => a.value statistic
  | none => 0.0

-- The instant at which an interval begins that ends at `stop`.
def start (i : Interval) (stop : Timestamp) : Except EvaluationError Timestamp :=
  match stop.minutesBefore? i.minutes with
  | some t => .ok t
  | none => .error (.windowOutOfRange stop i.minutes)

-- The first statistic of an aggregate that is no measure.
def aggregateFault? (stop : Timestamp) (metric : Metric) (a : Aggregate) :
    Option EvaluationError :=
  Statistic.all.findSome? fun s =>
    if Binary64.isMeasure (a.value s) then none
    else some (.invalidAggregate stop metric s (a.value s))

-- The first value that is no measure: the duration, then the metrics in their order.
def fault? (i : Interval) (stop : Timestamp) : Option EvaluationError :=
  if Binary64.isMeasure i.minutes then
    Metric.all.findSome? fun m => (i.metrics m).bind (aggregateFault? stop m)
  else
    some (.invalidDuration stop i.minutes)

-- Metrics that were measured, in the order of all metrics.
def measured (i : Interval) : List (Metric × Aggregate) :=
  Metric.all.filterMap fun m => (i.metrics m).map (m, ·)

def toJson (i : Interval) : Json :=
  .record [("duration_in_minutes", .float i.minutes),
    ("metrics", .record (i.measured.map fun (m, a) => (m.name, a.toJson)))]

-- The last aggregate given for a metric stays.
def metricsReader [Json.Conversion] : Reader (Metric → Option Aggregate) := fun v =>
  match Reader.mapping Metric.ofName? Aggregate.reader v with
  | .ok es => .ok (es.foldl (fun i (m, a) => i.withMetric m a) (bare 0.0)).metrics
  | .error fault => .error fault

def reader [Json.Conversion] : Reader Interval :=
  Reader.record ["duration_in_minutes", "metrics"] fun ms =>
    Interval.mk <$> ms.required "duration_in_minutes" Reader.number
      <*> ms.optional "metrics" metricsReader fun _ => none

end Interval

end ContainerSizing
