import ContainerSizing.Binary64.Basic
import ContainerSizing.ConfigurationError
import ContainerSizing.Json.Reader

namespace ContainerSizing

structure Tuning where
  oneCore : Float := 1.0
  oneMillicore : Float := 0.001
  zeroCpu : Float := 0.0
  cpuPercentile : Float := 98.0
  memoryPercentile : Float := 100.0
  usageBuffer : Float := 0.2
  spikeBuffer : Float := 0.05
  capacityPercentile : Float := 90.0
deriving DecidableEq, Inhabited

namespace Tuning

def percentiles (t : Tuning) : List (String × Float) :=
  [("cpu_request_percentile", t.cpuPercentile), ("memory_percentile", t.memoryPercentile),
    ("capacity_percentile", t.capacityPercentile)]

def thresholds (t : Tuning) : List (String × Float) :=
  [("cpu_one_core", t.oneCore), ("cpu_one_millicore", t.oneMillicore), ("cpu_zero", t.zeroCpu),
    ("memory_usage_buffer", t.usageBuffer), ("memory_spike_buffer", t.spikeBuffer)]

def isPercentile (x : Float) : Bool :=
  0.0 ≤ x && x ≤ 100.0

-- The first percentile out of range, or else the first threshold that is no measure.
def fault? (t : Tuning) : Option ConfigurationError :=
  match t.percentiles.find? fun (_, x) => !isPercentile x with
  | some (name, x) => some (.invalidPercentile name x)
  | none =>
    match t.thresholds.find? fun (_, x) => !Binary64.isMeasure x with
    | some (name, x) => some (.invalidThreshold name x)
    | none => none

def toJson (t : Tuning) : Json :=
  .record [("cpu_one_core", .float t.oneCore), ("cpu_one_millicore", .float t.oneMillicore),
    ("cpu_zero", .float t.zeroCpu), ("cpu_request_percentile", .float t.cpuPercentile),
    ("memory_percentile", .float t.memoryPercentile),
    ("memory_usage_buffer", .float t.usageBuffer), ("memory_spike_buffer", .float t.spikeBuffer),
    ("capacity_percentile", .float t.capacityPercentile)]

def names : List String :=
  ["cpu_one_core", "cpu_one_millicore", "cpu_zero", "cpu_request_percentile", "memory_percentile",
    "memory_usage_buffer", "memory_spike_buffer", "capacity_percentile"]

-- Numbers that are not given keep their standard values.
def reader [Json.Conversion] : Reader Tuning :=
  Reader.record names fun ms =>
    let field (name : String) (standard : Float) := ms.optional name Reader.number standard
    Tuning.mk <$> field "cpu_one_core" 1.0 <*> field "cpu_one_millicore" 0.001
      <*> field "cpu_zero" 0.0 <*> field "cpu_request_percentile" 98.0
      <*> field "memory_percentile" 100.0 <*> field "memory_usage_buffer" 0.2
      <*> field "memory_spike_buffer" 0.05 <*> field "capacity_percentile" 90.0

theorem fault?_standard : (default : Tuning).fault? = none := by
  decide

end Tuning

end ContainerSizing
