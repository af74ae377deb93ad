import ContainerSizing.Decimal.Reading
import ContainerSizing.Json.Conversion
import ContainerSizing.Json.Parser

namespace ContainerSizing.Configuration

inductive Value where
  | absent
  | flag (b : Bool)
  | whole (n : Int)
  | real (x : Float)
  | text (s : String)
  | list (items : List Value)
  | table (members : List (String × Value))

-- Names are told apart without regard to case; the Kelvin sign is a capital letter, too.
def canonical (name : String) : String :=
  name.map fun c => if c = '\u212a' then 'k' else c.toLower

namespace Value

instance : Inhabited Value := ⟨absent⟩

-- Members in their places, or none for a value that is no table.
def members : Value → List (String × Value)
  | table ms => ms
  | _ => []

-- Items in their places, or none for a value that is no list.
def items : Value → List Value
  | list vs => vs
  | _ => []

def get? (v : Value) (name : String) : Option Value :=
  v.members.lookup name

-- Changes the member of a name, which is made of `default` if there is none.
def alter (name : String) (default : Value) (f : Value → Value) :
    List (String × Value) → List (String × Value)
  | [] => [(name, f default)]
  | (n, v) :: rest => if n = name then (n, f v) :: rest else (n, v) :: alter name default f rest

mutual

-- Lays a value under a name of `target`, which becomes a table if it is none. A table is laid over
-- the value of that name member by member.
def put (name : String) (target : Value) : Value → Value
  | table ms => table (alter (canonical name) (table []) (putAll ms) target.members)
  | v => table (alter (canonical name) absent (fun _ => v) target.members)

def putAll : List (String × Value) → Value → Value
  | [], target => target
  | (name, v) :: rest, target => putAll rest (put name target v)

end

end Value

-- How deep values may be nested in a text.
def depthLimit : Nat := 128

namespace Value

variable [Json.Conversion]

-- Integers of 64 bits stay whole; all other numbers become real.
def ofNumeral? (n : Numeral) : Option Value :=
  match n.toInt?.filter Decimal.isWord with
  | some i => some (whole i)
  | none => (Json.Conversion.float? n).map real

mutual

-- Fails on numbers out of range and on literals without a text.
def ofJson? : Json → Option Value
  | .null => some absent
  | .bool b => some (flag b)
  | .number n => ofNumeral? n
  | .string s => s.map text
  | .array vs => (ofItems? vs).map list
  | .object ms => (ofMembers? [] ms).map table
  | .cut => none

def ofItems? : List Json → Option (List Value)
  | [] => some []
  | v :: rest =>
    match ofJson? v, ofItems? rest with
    | some v, some vs => some (v :: vs)
    | _, _ => none

-- Of several members with one name the last stays.
def ofMembers? (read : List (String × Value)) :
    List (Option String × Json) → Option (List (String × Value))
  | [] => some read
  | (name, v) :: rest =>
    match name, ofJson? v with
    | some name, some v => ofMembers? (alter name absent (fun _ => v) read) rest
    | _, _ => none

end

-- The members of an object that makes up a whole text.
def ofText? (s : String) : Option (List (String × Value)) :=
  match Json.parse? s with
  | some v =>
    if v.depth < depthLimit then
      match ofJson? v with
      | some (table ms) => some ms
      | _ => none
    else
      none
  | none => none

end Value

end ContainerSizing.Configuration
