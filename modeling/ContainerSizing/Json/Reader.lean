import ContainerSizing.Json.Basic
import ContainerSizing.Json.Conversion

namespace ContainerSizing.Json

-- The text is no JSON, or the value has another shape than the one asked for.
inductive Fault where
  | malformed
  | mismatch
deriving DecidableEq, Repr

end Json

-- A reader fails with the fault that comes first in the order of the text.
abbrev Reader (α : Type) := Json → Except Json.Fault α

variable [Json.Conversion]

namespace Json

-- The fault of a value that stands where another kind is asked for. A scalar is read before it is
-- refused, so a number out of range or a broken literal counts as malformed; arrays and objects are
-- refused at their first character.
def unexpected : Json → Fault
  | .cut => .malformed
  | .string none => .malformed
  | .number n => if (Conversion.float? n).isSome then .mismatch else .malformed
  | _ => .mismatch

end Json

namespace Reader

open Json (Conversion Fault)

def number : Reader Float
  | .number n =>
    match Conversion.float? n with
    | some x => .ok x
    | none => .error .malformed
  | v => .error v.unexpected

-- Integers only, from zero to `limit`.
def natural (limit : Nat) : Reader Nat
  | .number n =>
    match n.toInt? with
    | some i =>
      if 0 ≤ i ∧ i.toNat ≤ limit then .ok i.toNat else .error (Json.unexpected (.number n))
    | none => .error (Json.unexpected (.number n))
  | v => .error v.unexpected

def uint32 : Reader UInt32 := fun v =>
  UInt32.ofNat <$> natural (UInt32.size - 1) v

def text : Reader String
  | .string (some s) => .ok s
  | v => .error v.unexpected

-- A text with further rules of its own.
def parsed (parse : String → Option α) : Reader α := fun v =>
  match text v with
  | .ok s => match parse s with
    | some a => .ok a
    | none => .error .mismatch
  | .error fault => .error fault

def null : Reader Unit
  | .null => .ok ()
  | v => .error v.unexpected

-- `null` reads as no value.
def nullable (read : Reader α) : Reader (Option α)
  | .null => .ok none
  | v => some <$> read v

-- A name out of a fixed choice, alone or as the one member of an object whose value is `null`.
def choice (parse : String → Option α) : Reader α
  | .object [(some name, v)] =>
    match parse name with
    | some a => (fun _ => a) <$> null v
    | none => .error .mismatch
  | v => parsed parse v

-- Reads from the left and stops at the first fault.
def items (read : Reader α) : List Json → Except Fault (List α)
  | [] => .ok []
  | v :: rest =>
    match read v with
    | .ok a => (a :: ·) <$> items read rest
    | .error fault => .error fault

def list (read : Reader α) : Reader (List α)
  | .array vs => items read vs
  | v => .error v.unexpected

def entries (key : String → Option κ) (read : Reader α) :
    List (Option String × Json) → Except Fault (List (κ × α))
  | [] => .ok []
  | (none, _) :: _ => .error .malformed
  | (some name, v) :: rest =>
    match key name with
    | none => .error .mismatch
    | some k =>
      match read v with
      | .ok a => ((k, a) :: ·) <$> entries key read rest
      | .error fault => .error fault

-- An object with any number of members, in order; names are read by `key`.
def mapping (key : String → Option κ) (read : Reader α) : Reader (List (κ × α))
  | .object members => entries key read members
  | v => .error v.unexpected

-- A record is an object with known member names, or an array of the members in their order.
-- The members of a record in the order of the text.
structure Members where
  members : List (Option String × Json)
  positional : Bool

-- A result, or the fault with the position of the member where it arose.
abbrev Scan (α : Type) := Except (Nat × Fault) α

-- Two results; of two faults the one that comes first in the text.
def Scan.both (f : Scan (α → β)) (a : Scan α) : Scan β :=
  match f, a with
  | .ok f, .ok a => .ok (f a)
  | .ok _, .error e => .error e
  | .error e, .ok _ => .error e
  | .error e, .error e' => .error (if e'.1 < e.1 then e' else e)

instance : Applicative Scan where
  pure a := .ok a
  seq f a := Scan.both f (a ())

namespace Members

def numbered (ms : Members) : List (Nat × Option String × Json) :=
  ms.members.zipIdx.map fun (m, i) => (i, m)

-- A member must not be repeated. When there is none, `absent` decides behind all members.
def field (ms : Members) (name : String) (read : Reader α) (absent : Except Fault α) : Scan α :=
  match ms.numbered.filter fun (_, key, _) => key = some name with
  | [] =>
    match absent with
    | .ok a => .ok a
    | .error fault => .error (ms.members.length, fault)
  | (i, _, v) :: more =>
    match read v, more with
    | .error fault, _ => .error (i, fault)
    | .ok a, [] => .ok a
    | .ok _, (j, _) :: _ => .error (j, .mismatch)

def required (ms : Members) (name : String) (read : Reader α) : Scan α :=
  ms.field name read (.error .mismatch)

def optional (ms : Members) (name : String) (read : Reader α) (default : α) : Scan α :=
  ms.field name read (.ok default)

-- May be `null` and may be missing from an object, but keeps its place in an array.
def placed (ms : Members) (name : String) (read : Reader α) : Scan (Option α) :=
  ms.field name (nullable read) (if ms.positional then .error .mismatch else .ok none)

-- Members with other names are passed over, if they are JSON at all.
def others (ms : Members) (names : List String) : Scan Unit :=
  match ms.numbered.find? fun (_, key, v) =>
    match key with
    | none => true
    | some name => !names.contains name && !v.isWhole with
  | some (i, _) => .error (i, .malformed)
  | none => .ok ()

end Members

-- The items of an array under the names of their places; one item too many is no member.
def placeItems : (names : List String) → List Json → List (Option String × Json)
  | name :: names, v :: vs => (some name, v) :: placeItems names vs
  | [], _ :: _ => [(none, .cut)]
  | _, [] => []

def record (names : List String) (fields : Members → Scan α) : Reader α := fun v =>
  let read (ms : Members) : Except Fault α :=
    match (fun a _ => a) <$> fields ms <*> ms.others names with
    | .ok a => .ok a
    | .error (_, fault) => .error fault
  match v with
  | .object members => read ⟨members, false⟩
  | .array vs => read ⟨placeItems names vs, true⟩
  | v => .error v.unexpected

end Reader

end ContainerSizing
