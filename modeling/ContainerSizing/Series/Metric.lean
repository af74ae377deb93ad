import ContainerSizing.Json.Reader

namespace ContainerSizing

inductive Metric where
  | cpuUsage
  | cpuThrottle
  | memoryUsage
  | memoryRss
  | cpuRequest
  | memoryRequest
  | cpuLimit
  | memoryLimit
deriving DecidableEq, Repr

namespace Metric

def all : List Metric :=
  [cpuUsage, cpuThrottle, memoryUsage, memoryRss, cpuRequest, memoryRequest, cpuLimit, memoryLimit]

theorem mem_all (m : Metric) : m ∈ all := by
  cases m <;> decide

def name : Metric → String
  | cpuUsage => "cpuUsage"
  | cpuThrottle => "cpuThrottle"
  | memoryUsage => "memoryUsage"
  | memoryRss => "memoryRSS"
  | cpuRequest => "cpuRequest"
  | memoryRequest => "memoryRequest"
  | cpuLimit => "cpuLimit"
  | memoryLimit => "memoryLimit"

def ofName? (s : String) : Option Metric :=
  all.find? fun m => m.name = s

theorem ofName?_name (m : Metric) : ofName? m.name = some m := by
  cases m <;> decide

end Metric

inductive Statistic where
  | average
  | maximum
  | minimum
  | total
deriving DecidableEq, Repr

namespace Statistic

def all : List Statistic :=
  [average, maximum, minimum, total]

def name : Statistic → String
  | average => "avg"
  | maximum => "max"
  | minimum => "min"
  | total => "sum"

def ofName? (s : String) : Option Statistic :=
  all.find? fun a => a.name = s

end Statistic

-- The statistics of one metric over an interval, summed over all pods in `total`.
structure Aggregate where
  average : Float := 0.0
  maximum : Float := 0.0
  minimum : Float := 0.0
  total : Float := 0.0
  unit : String := ""
deriving Inhabited

namespace Aggregate

def value (a : Aggregate) : Statistic → Float
  | .average => a.average
  | .maximum => a.maximum
  | .minimum => a.minimum
  | .total => a.total

def toJson (a : Aggregate) : Json :=
  .record [("avg", .float a.average), ("max", .float a.maximum), ("min", .float a.minimum),
    ("sum", .float a.total), ("format", .text a.unit)]

def reader [Json.Conversion] : Reader Aggregate :=
  Reader.record ["avg", "max", "min", "sum", "format"] fun ms =>
    Aggregate.mk <$> ms.optional "avg" Reader.number 0.0 <*> ms.optional "max" Reader.number 0.0
      <*> ms.optional "min" Reader.number 0.0 <*> ms.optional "sum" Reader.number 0.0
      <*> ms.optional "format" Reader.text ""

end Aggregate

end ContainerSizing
