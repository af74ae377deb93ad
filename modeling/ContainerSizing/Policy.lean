import ContainerSizing.Binary64.Basic
import ContainerSizing.ConfigurationError
import ContainerSizing.Json.Reader

namespace ContainerSizing

structure Term where
  label : String
  days : UInt32
  leastMinutes : Float
deriving DecidableEq

namespace Term

def hours (t : Term) : Float :=
  t.days.toFloat * 24.0

def minutes (t : Term) : Float :=
  t.days.toFloat * 1440.0

-- What is wrong with a term on its own; a bound that is not a number is no bound.
def fault? (t : Term) : Option ConfigurationError :=
  if t.days = 0 then some (.zeroDuration t.label)
  else if t.leastMinutes > 0 then none
  else some (.nonPositiveBound t.label t.leastMinutes)

def toJson (t : Term) : Json :=
  .record [("label", .text t.label), ("duration_days", .natural t.days.toNat),
    ("lower_bound_minutes", .float t.leastMinutes)]

def reader [Json.Conversion] : Reader Term :=
  Reader.record ["label", "duration_days", "lower_bound_minutes"] fun ms =>
    Term.mk <$> ms.required "label" Reader.text <*> ms.required "duration_days" Reader.uint32
      <*> ms.required "lower_bound_minutes" Reader.number

end Term

structure Policy where
  terms : List Term
deriving DecidableEq

namespace Policy

def standard : Policy :=
  ⟨[⟨"short_term", 1, 30.0⟩, ⟨"medium_term", 7, 2880.0⟩, ⟨"long_term", 15, 11520.0⟩]⟩

-- The fault of the first term that repeats a label or is wrong on its own.
def termsFault? (seen : List String) : List Term → Option ConfigurationError
  | [] => none
  | t :: rest =>
    if t.label ∈ seen then some (.duplicateLabel t.label)
    else match t.fault? with
      | some e => some e
      | none => termsFault? (t.label :: seen) rest

def fault? (p : Policy) : Option ConfigurationError :=
  if p.terms.isEmpty then some .emptyPolicy else termsFault? [] p.terms

def get? (p : Policy) (label : String) : Option Term :=
  p.terms.find? fun t => t.label = label

-- The first of the least bounds; a bound that is not a number neither wins nor loses.
def leastBound? (p : Policy) : Option Float :=
  match p.terms.map Term.leastMinutes with
  | [] => none
  | b :: bs => some (bs.foldl (fun least b => if least > b then b else least) b)

def toJson (p : Policy) : Json :=
  .record [("sub_categories", .array (p.terms.map Term.toJson))]

def reader [Json.Conversion] : Reader Policy :=
  Reader.record ["sub_categories"] fun ms =>
    Policy.mk <$> ms.required "sub_categories" (Reader.list Term.reader)

theorem fault?_standard : standard.fault? = none := by
  decide

end Policy

end ContainerSizing
