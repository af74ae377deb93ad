import ContainerSizing.Decimal.Text

namespace ContainerSizing

open Binary64

-- A numeral also tells whether it was written as an integer.
structure Numeral where
  negative : Bool
  mantissa : Nat
  exponent : Int
  -- written with neither a point nor an exponent
  integral : Bool
deriving DecidableEq, Repr

namespace Numeral

-- The nearest binary64 number. Magnitudes far outside the range are settled by the count of their
-- digits, so that an exponent of any size costs nothing.
def toFloat (n : Numeral) : Float :=
  let magnitude :=
    if n.mantissa = 0 then 0.0
    else if 310 ≤ (n.mantissa.log2 * 30102 / 100000 : Nat) + n.exponent then infinity
    else if ((n.mantissa.log2 + 1) * 30103 / 100000 + 1 : Nat) + n.exponent < -330 then 0.0
    else Float.ofScientific n.mantissa (n.exponent < 0) n.exponent.natAbs
  if n.negative then -magnitude else magnitude

-- The value of a numeral that was written as an integer; a negative zero is no integer.
def toInt? (n : Numeral) : Option Int :=
  if n.integral then
    if n.negative then if n.mantissa = 0 then none else some (-(n.mantissa : Int))
    else some n.mantissa
  else
    none

def ofNat (n : Nat) : Numeral :=
  ⟨false, n, 0, true⟩

@[simp] theorem toInt?_ofNat (n : Nat) : (ofNat n).toInt? = some (n : Int) := rfl

-- The shortest digits that are nearest to a finite number and no other. Whole numbers of up to sixteen
-- digits are written out, with a zero behind the point.
def ofFloat (x : Float) : Numeral :=
  let d := Decimal.shortest (parts x)
  if 0 ≤ d.exponent ∧ (toString d.units).length + d.exponent ≤ 16 then
    ⟨isNegative x, d.units * Decimal.powerOfTen (d.exponent.toNat + 1), -1, false⟩
  else
    ⟨isNegative x, d.units, d.exponent, false⟩

-- Positional from `0.00001` up to sixteen digits before the point, if there are digits behind it;
-- otherwise one digit before the point and an exponent.
def text (n : Numeral) : String :=
  let digits := toString n.mantissa
  let size := digits.length
  -- the count of digits before the point
  let lead : Int := size + n.exponent
  Decimal.signed n.negative <|
    if n.integral then digits
    else if n.exponent < 0 ∧ -5 < lead ∧ lead ≤ 16 then
      Decimal.pointed (-n.exponent).toNat n.mantissa
    else
      let power := toString (lead - 1)
      if size = 1 then digits ++ "e" ++ power
      else Decimal.pointed (size - 1) n.mantissa ++ "e" ++ power

end Numeral

-- A run of decimal digits at the start of a text, with the value it denotes and its length.
structure DigitRun where
  value : Nat
  length : Nat
  rest : List Char
deriving DecidableEq, Repr

namespace DigitRun

def digitValue (c : Char) : Nat :=
  c.toNat - '0'.toNat

-- Reads on from the digits read so far.
def extend (value length : Nat) : List Char → DigitRun
  | [] => ⟨value, length, []⟩
  | c :: cs =>
    if c.isDigit then extend (value * 10 + digitValue c) (length + 1) cs
    else ⟨value, length, c :: cs⟩

def read (cs : List Char) : DigitRun :=
  extend 0 0 cs

end DigitRun

end ContainerSizing
