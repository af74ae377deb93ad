import ContainerSizing.Configuration.Value

namespace ContainerSizing.Configuration

inductive Step where
  | name (s : String)
  | index (i : Int)
deriving DecidableEq, Repr

-- The name of a member of the outermost table, and the steps that lead on from it.
structure KeyPath where
  root : String
  steps : List Step
deriving DecidableEq, Repr

namespace KeyPath

def isNameChar (c : Char) : Bool :=
  c.isAlphanum || c = ' ' || c = '_' || c = '-'

def dropSpace (cs : List Char) : List Char :=
  cs.dropWhile fun c => c = ' ' ∨ c = '\t'

-- A position of 64 bits, with space around it, up to the closing bracket.
def index? (cs : List Char) : Option (Int × List Char) :=
  match (dropSpace cs).span (· ≠ ']') with
  | (digits, ']' :: rest) =>
    -- a position may be below zero, but has no plus sign
    let digits := (dropSpace digits.reverse).reverse
    match digits.head? == some '+', Decimal.integer? (String.ofList digits) with
    | false, some i => if Decimal.isWord i then some (i, rest) else none
    | _, _ => none
  | _ => none

-- Every step takes a character at least.
def steps? : Nat → List Char → Option (List Step)
  | _, [] => some []
  | 0, _ => none
  | fuel + 1, '.' :: cs =>
    match cs.span isNameChar with
    | ([], _) => none
    | (name, rest) => (steps? fuel rest).map (Step.name (String.ofList name) :: ·)
  | fuel + 1, '[' :: cs =>
    match index? cs with
    | some (i, rest) => (steps? fuel rest).map (Step.index i :: ·)
    | none => none
  | _, _ => none

def parse? (key : String) : Option KeyPath :=
  match key.toList.span isNameChar with
  | ([], _) => none
  | (name, rest) => (steps? rest.length rest).map (KeyPath.mk (String.ofList name))

-- Keys are read in small letters. One that is no path is a name as a whole.
def ofKey (key : String) : KeyPath :=
  let key := canonical key
  (parse? key).getD ⟨key, []⟩

-- Positions below zero count from the end of a list.
def position (i : Int) (length : Nat) : Nat :=
  if 0 ≤ i then i.toNat else length - i.natAbs

-- Changes the item of a position; a list that is too short is filled up first.
def alterItem (i : Int) (f : Value → Value) (vs : List Value) : List Value :=
  let p := position i vs.length
  (vs ++ List.replicate (p + 1 - vs.length) Value.absent).modify p f

-- Sets the value that `steps` lead to from `target`. What is missing on the way is made, and parts of
-- the way that are no tables or lists are replaced.
def descend (value : Value) : List Step → Value → Value
  | [], _ => value
  | [.name s], target => Value.put s target value
  | .name s :: steps, target =>
    .table (Value.alter s .absent (descend value steps) target.members)
  | .index i :: steps, target => .list (alterItem i (descend value steps) target.items)

end KeyPath

-- Sets the value at a path.
def Value.set (v : Value) (path : KeyPath) (value : Value) : Value :=
  KeyPath.descend value (.name path.root :: path.steps) v

end ContainerSizing.Configuration
