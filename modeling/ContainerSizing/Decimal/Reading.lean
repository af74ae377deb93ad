import ContainerSizing.Decimal.Numeral
import ContainerSizing.Text.Blank

namespace ContainerSizing.Decimal

-- A sign that may be missing, and what follows it.
def splitSign : List Char → Bool × List Char
  | '-' :: cs => (true, cs)
  | '+' :: cs => (false, cs)
  | cs => (false, cs)

-- Digits and nothing else.
def digits? (cs : List Char) : Option Nat :=
  let run := DigitRun.read cs
  if run.length > 0 && run.rest.isEmpty then some run.value else none

def integer? (s : String) : Option Int :=
  let (negative, cs) := splitSign s.toList
  (digits? cs).map fun n => if negative then -(n : Int) else n

-- An integer that a word of 64 bits holds.
def isWord (i : Int) : Bool :=
  Int64.minValue.toInt ≤ i && i ≤ Int64.maxValue.toInt

-- A natural number takes a plus sign, but no minus sign, not even before zero.
def natural? (s : String) : Option Nat :=
  match s.toList with
  | '-' :: _ => none
  | '+' :: cs => digits? cs
  | cs => digits? cs

-- The power of ten behind a mantissa, which ends the text.
def power? : List Char → Option Int
  | [] => some 0
  | c :: cs =>
    if c = 'e' ∨ c = 'E' then
      let (negative, cs) := splitSign cs
      (digits? cs).map fun n => if negative then -(n : Int) else n
    else
      none

-- Digits on at least one side of the point; the point and the power may be missing.
def magnitude? (cs : List Char) : Option Numeral :=
  let whole := DigitRun.read cs
  let decimals :=
    match whole.rest with
    | '.' :: cs => DigitRun.read cs
    | cs => ⟨0, 0, cs⟩
  if whole.length + decimals.length = 0 then none
  else (power? decimals.rest).map fun power =>
    let mantissa := whole.value * powerOfTen decimals.length + decimals.value
    ⟨false, mantissa, power - decimals.length, false⟩

-- Numbers in decimal notation and, in letters of any case, those without digits.
def number? (s : String) : Option Float :=
  let (negative, cs) := splitSign s.toList
  let signed (x : Float) := if negative then -x else x
  if Text.sameLetters cs "inf".toList || Text.sameLetters cs "infinity".toList then
    some (signed Binary64.infinity)
  else if Text.sameLetters cs "nan".toList then
    some Binary64.notANumber
  else
    (magnitude? cs).map fun n => signed n.toFloat

end ContainerSizing.Decimal
