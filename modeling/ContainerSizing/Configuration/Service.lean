import ContainerSizing.Configuration.Coercion
import ContainerSizing.Configuration.KeyPath
import ContainerSizing.Engine.Basic

namespace ContainerSizing

structure ServiceConfiguration where
  name : String
  port : UInt16 := 8080
  engineKey : String := EngineKind.key default
  tuning : Tuning := default
  policy : Policy := .standard
deriving DecidableEq

namespace ServiceConfiguration

open ContainerSizing.Configuration (KeyPath Value canonical)

-- A variable is read as a truth value, as a number of 64 bits, as a real number, or as text.
def variableValue (s : String) : Value :=
  match Text.lower s with
  | "true" => .flag true
  | "false" => .flag false
  | _ =>
    match (Decimal.integer? s).filter Decimal.isWord with
    | some i => .whole i
    | none =>
      match Decimal.number? s with
      | some x => .real x
      | none => .text s

-- The key that a variable sets; two underscores lead into a nested table.
def variableKey? (name : String) : Option String :=
  ("advisor_".toList.isPrefixOf? (canonical name).toList).map fun cs =>
    ".".intercalate ((String.ofList cs).splitOn "__")

-- The settings of the variables; of several that set one key the last counts.
def environmentSettings (environment : List (String × String)) : List (String × Value) :=
  environment.foldl (fun ms (name, s) =>
    match variableKey? name with
    | some key => Value.alter key .absent (fun _ => variableValue s) ms
    | none => ms) []

-- Keys of both sources may be paths.
def setAll (v : Value) (settings : List (String × Value)) : Value :=
  settings.foldl (fun v (key, value) => v.set (KeyPath.ofKey key) value) v

def term? (v : Value) : Option Term := do
  let ms ← v.record? ["label", "duration_days", "lower_bound_minutes"]
  some {
    label := ← Value.required? "label" Value.text? ms
    days := UInt32.ofNat (← Value.required? "duration_days" (Value.natural? UInt32.size) ms)
    leastMinutes := ← Value.required? "lower_bound_minutes" Value.number? ms }

def policy? (v : Value) : Option Policy := do
  let ms ← v.record? ["sub_categories"]
  some ⟨← Value.required? "sub_categories" (Value.list? term?) ms⟩

def tuning? (v : Value) : Option Tuning := do
  let ms ← v.record? Tuning.names
  let field (name : String) (standard : Float) := Value.optional? name Value.number? standard ms
  some {
    oneCore := ← field "cpu_one_core" 1.0
    oneMillicore := ← field "cpu_one_millicore" 0.001
    zeroCpu := ← field "cpu_zero" 0.0
    cpuPercentile := ← field "cpu_request_percentile" 98.0
    memoryPercentile := ← field "memory_percentile" 100.0
    usageBuffer := ← field "memory_usage_buffer" 0.2
    spikeBuffer := ← field "memory_spike_buffer" 0.05
    capacityPercentile := ← field "capacity_percentile" 90.0 }

def ofValue? (standard : ServiceConfiguration) (v : Value) : Option ServiceConfiguration := do
  let ms := v.members
  let port? (v : Value) := (v.natural? UInt16.size).map UInt16.ofNat
  some {
    name := ← Value.optional? "service_name" Value.text? standard.name ms
    port := ← Value.optional? "api_port" port? standard.port ms
    engineKey := ← Value.optional? "engine" Value.text? standard.engineKey ms
    tuning := ← Value.optional? "engine_config" tuning? standard.tuning ms
    policy := ← Value.optional? "policy" policy? standard.policy ms }

inductive Fault where
  | unreadable
  | invalid
  | engine (cause : ConfigurationError)
  | tuning (cause : ConfigurationError)
  | policy (cause : ConfigurationError)
deriving DecidableEq

def Fault.message : Fault → String
  | unreadable => "Failed to read advisor configuration"
  | invalid => "Invalid advisor configuration"
  | engine cause => "Invalid engine: " ++ cause.message
  | tuning cause => "Invalid engine_config: " ++ cause.message
  | policy cause => "Invalid policy: " ++ cause.message

-- The first thing that keeps a service from being set up with this configuration.
def fault? (c : ServiceConfiguration) : Option Fault :=
  match EngineKind.ofKey c.engineKey with
  | .error e => some (.engine e)
  | .ok _ =>
    match c.tuning.fault? with
    | some e => some (.tuning e)
    | none => c.policy.fault?.map .policy

-- Named after the host, if the environment tells its name.
def standard (environment : List (String × String)) : ServiceConfiguration :=
  { name := (environment.lookup "HOSTNAME").getD "rightsize-advisor" }

-- The engine of a configuration without faults.
def engine? (c : ServiceConfiguration) : Option Engine :=
  match EngineKind.ofKey c.engineKey with
  | .ok kind => (Engine.build kind c.tuning c.policy).toOption
  | .error _ => none

theorem fault?_standard (environment : List (String × String)) :
    (standard environment).fault? = none := by
  simp [fault?, standard, EngineKind.ofKey_key, Tuning.fault?_standard, Policy.fault?_standard]

-- A configuration is free of faults exactly if it sets up an engine.
theorem engine?_isSome_iff (c : ServiceConfiguration) : c.engine?.isSome ↔ c.fault? = none := by
  unfold engine? fault? Engine.build
  cases EngineKind.ofKey c.engineKey with
  | error e => simp
  | ok kind =>
    cases ht : c.tuning.fault? <;> cases hp : c.policy.fault? <;> simp [Except.toOption]

variable [Json.Conversion]

-- A file that is missing sets nothing.
def fileSettings (file : Option String) : Except Fault (List (String × Value)) :=
  match file with
  | none => .ok []
  | some s =>
    match Value.ofText? s with
    | some ms => .ok ms
    | none => .error .unreadable

def load (file : Option String) (environment : List (String × String)) :
    Except Fault ServiceConfiguration := do
  let ms ← fileSettings file
  let v := setAll (setAll (.table []) ms) (environmentSettings environment)
  match ofValue? (standard environment) v with
  | none => .error .invalid
  | some c =>
    match c.fault? with
    | some e => .error e
    | none => .ok c

end ServiceConfiguration

end ContainerSizing
