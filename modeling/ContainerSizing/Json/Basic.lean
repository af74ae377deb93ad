import ContainerSizing.Decimal.Numeral

namespace ContainerSizing

-- A string literal has no text when it escapes half of a surrogate pair without the other half. The
-- value `cut` stands where a malformed text stopped being JSON; it is the last value of its text.
-- Objects keep every member in order, so that a reader can tell a repeated name from a missing one.
inductive Json where
  | null
  | bool (value : Bool)
  | number (numeral : Numeral)
  | string (text : Option String)
  | array (items : List Json)
  | object (members : List (Option String × Json))
  | cut

namespace Json

instance : Inhabited Json := ⟨null⟩

def text (s : String) : Json :=
  .string (some s)

def natural (n : Nat) : Json :=
  .number (.ofNat n)

def integer (n : Int) : Json :=
  .number ⟨n < 0, n.natAbs, 0, true⟩

-- JSON has no numeral for numbers that are not finite.
def float (x : Float) : Json :=
  if x.isFinite then .number (.ofFloat x) else .null

def record (fields : List (String × Json)) : Json :=
  .object (fields.map fun (name, value) => (some name, value))

-- A value, or `null` in place of none.
def orNull : Option Json → Json
  | some value => value
  | none => .null

mutual

-- The text of this value did not break off.
def isWhole : Json → Bool
  | .cut => false
  | .array items => areWhole items
  | .object members => membersAreWhole members
  | _ => true

def areWhole : List Json → Bool
  | [] => true
  | value :: rest => isWhole value && areWhole rest

def membersAreWhole : List (Option String × Json) → Bool
  | [] => true
  | (_, value) :: rest => isWhole value && membersAreWhole rest

end

mutual

-- How deep arrays and objects are nested.
def depth : Json → Nat
  | .array items => itemsDepth items + 1
  | .object members => membersDepth members + 1
  | _ => 0

def itemsDepth : List Json → Nat
  | [] => 0
  | value :: rest => max (depth value) (itemsDepth rest)

def membersDepth : List (Option String × Json) → Nat
  | [] => 0
  | (_, value) :: rest => max (depth value) (membersDepth rest)

end

end Json

end ContainerSizing
