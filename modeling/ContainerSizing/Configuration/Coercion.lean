import ContainerSizing.Configuration.Value

namespace ContainerSizing.Configuration.Value

-- Texts count as numbers and numbers as texts, because the environment does not tell them apart.
def text? : Value → Option String
  | text s => some s
  | flag b => some (if b then "true" else "false")
  | whole n => some (toString n)
  | real x => some (Decimal.plain x)
  | _ => none

-- Words for yes and no, in letters of any case.
def switch? (s : String) : Option Bool :=
  match Text.lower s with
  | "true" | "on" | "yes" => some true
  | "false" | "off" | "no" => some false
  | _ => none

-- A natural number of any size; a real number is rounded, and held between 0 and `largest`.
def unbounded? (largest : Nat) : Value → Option Nat
  | whole n => if 0 ≤ n then some n.toNat else none
  | flag b => some b.toNat
  | real x => some (Binary64.toNearestNat largest x)
  | text s =>
    match switch? s with
    | some b => some b.toNat
    | none => Decimal.natural? s
  | _ => none

-- A natural number below `size`.
def natural? (size : Nat) (v : Value) : Option Nat :=
  -- real numbers that are too large are held at `size`, which is too large as well
  (v.unbounded? size).filter (· < size)

def number? : Value → Option Float
  | real x => some x
  | whole n => some (Numeral.mk (n < 0) n.natAbs 0 true).toFloat
  | flag b => some (if b then 1.0 else 0.0)
  | text s =>
    match switch? s with
    | some b => some (if b then 1.0 else 0.0)
    | none => Decimal.number? s
  | _ => none

def list? (read : Value → Option α) : Value → Option (List α)
  | list vs => vs.mapM read
  | _ => none

-- A table, or a list of the first members in their order; what else it holds is passed over.
def record? (names : List String) : Value → Option (List (String × Value))
  | table ms => some ms
  | list vs => some (names.zip vs)
  | _ => none

def required? (name : String) (read : Value → Option α) (ms : List (String × Value)) : Option α :=
  (ms.lookup name).bind read

def optional? (name : String) (read : Value → Option α) (default : α)
    (ms : List (String × Value)) : Option α :=
  match ms.lookup name with
  | some v => read v
  | none => some default

end ContainerSizing.Configuration.Value
