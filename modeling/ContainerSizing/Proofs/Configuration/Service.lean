import ContainerSizing.Configuration.Service
import ContainerSizing.Proofs.Engine.Basic
import ContainerSizing.Proofs.Statistics

namespace ContainerSizing

namespace EngineKind

variable {kind : EngineKind} {key : String} {e : ConfigurationError}

end EngineKind

namespace ServiceConfiguration

variable {c c' : ServiceConfiguration} {f : Fault}
variable {file : Option String} {environment : List (String × String)}

-- What file and variables say, before it is checked.
def decoded [Json.Conversion] (file : Option String) (environment : List (String × String)) :
    Except Fault ServiceConfiguration := do
  let ms ← fileSettings file
  let v := setAll (setAll (.table []) ms) (environmentSettings environment)
  match ofValue? (standard environment) v with
  | none => .error .invalid
  | some c => .ok c

structure IsUsable (c : ServiceConfiguration) : Prop where
  engine : ∃ kind : EngineKind, EngineKind.spelling c.engineKey = kind.key
  tuning : c.tuning.IsUsable
  policy : c.policy.IsUsable

-- The first thing that is wrong.
inductive IsFaulty (c : ServiceConfiguration) : Fault → Prop
  | engine (hk : ∀ kind : EngineKind, EngineKind.spelling c.engineKey ≠ kind.key) :
      IsFaulty c (.engine (.unknownEngine c.engineKey))
  | tuning {kind : EngineKind} {e : ConfigurationError}
      (hk : EngineKind.spelling c.engineKey = kind.key) (ht : c.tuning.fault? = some e) :
      IsFaulty c (.tuning e)
  | policy {kind : EngineKind} {e : ConfigurationError}
      (hk : EngineKind.spelling c.engineKey = kind.key) (ht : c.tuning.IsUsable)
      (hp : c.policy.IsFaulty e) : IsFaulty c (.policy e)

section Spelling

attribute [local instance] Json.Conversion.stepwise

-- A key that is spelled freely, and terms of which the second one has more than one fault.

end Spelling

end ServiceConfiguration

end ContainerSizing
