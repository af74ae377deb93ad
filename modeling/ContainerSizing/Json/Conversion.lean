import ContainerSizing.Decimal.Numeral

namespace ContainerSizing

namespace Numeral

open Binary64

-- The first digits of a mantissa that a word of 64 bits holds, and how many digits follow them. Each
-- step drops a digit, and there are fewer digits than bits.
def fitWord : (fuel mantissa : Nat) → Nat × Nat
  | 0, m => (m, 0)
  | fuel + 1, m =>
    if m < UInt64.size then (m, 0)
    else
      let (first, dropped) := fitWord fuel (m / 10)
      (first, dropped + 1)

def tenTo (k : Nat) : Float :=
  Float.ofScientific 1 false k

-- Scales by a power of ten. No number is as large as `10 ^ 309`, so that small numbers take two steps.
def scale (x : Float) (e : Int) : Float :=
  if x == 0.0 then x
  else if 308 < e then infinity
  else if 0 ≤ e then x * tenTo e.toNat
  else if -308 ≤ e then x / tenTo e.natAbs
  else if -616 ≤ e then x / tenTo 308 / tenTo (e + 308).natAbs
  else 0.0

-- The first digits as a number, scaled by the power of ten that is left. Each of these steps rounds, so
-- that this is not always the nearest number.
def toFloatByScaling (n : Numeral) : Float :=
  let (first, dropped) := fitWord n.mantissa.log2 n.mantissa
  let magnitude := scale (UInt64.ofNat first).toFloat (n.exponent + dropped)
  if n.negative then -magnitude else magnitude

end Numeral

namespace Json

-- How the numerals of a text become numbers is up to the library that reads it. Whatever it makes of
-- them, numbers out of range are refused.
class Conversion where
  float? : Numeral → Option Float
  isFinite_of_float? {n : Numeral} {x : Float} : float? n = some x → x.isFinite

namespace Conversion

@[reducible] def of (convert : Numeral → Float) : Conversion where
  float? n := (some (convert n)).filter Float.isFinite
  isFinite_of_float? h := (Option.filter_eq_some_iff.mp h).right

-- How the library reads by default.
@[reducible] def stepwise : Conversion :=
  .of Numeral.toFloatByScaling

-- How it reads when it is built to keep round trips.
@[reducible] def nearest : Conversion :=
  .of Numeral.toFloat

-- For callers that do not say how the library was built.
instance (priority := low) : Conversion :=
  nearest

end Conversion

end Json

end ContainerSizing
