namespace ContainerSizing.Binary64

def infinity : Float := 1.0 / 0.0

def notANumber : Float := 0.0 / 0.0

-- The value of a finite number: `mantissa * 2 ^ exponent`, below zero when `negative`.
structure Parts where
  negative : Bool
  mantissa : Nat
  exponent : Int
deriving DecidableEq, Repr

-- The highest bit is the sign.
def signBit : Nat := 1 <<< 63

-- The leading bit of a normal number's mantissa, which is not stored.
def hiddenBit : Nat := 1 <<< 52

-- The sign also tells `-0.0` from `0.0`.
def isNegative (x : Float) : Bool :=
  signBit ≤ x.toBits.toNat

-- Subnormal numbers share the exponent of the least normal ones and lack the hidden bit.
def parts (x : Float) : Parts :=
  let biased : Nat := x.toBits.toNat / hiddenBit % 2048
  let fraction := x.toBits.toNat % hiddenBit
  if biased = 0 then
    ⟨isNegative x, fraction, -1074⟩
  else
    ⟨isNegative x, fraction + hiddenBit, (biased : Int) - 1075⟩

namespace Parts

-- The magnitude as a fraction of natural numbers.
def numerator (p : Parts) : Nat :=
  p.mantissa <<< p.exponent.toNat

def denominator (p : Parts) : Nat :=
  1 <<< (-p.exponent).toNat

theorem denominator_pos (p : Parts) : 0 < p.denominator := by
  rw [denominator, Nat.one_shiftLeft]
  exact Nat.two_pow_pos _

-- The largest natural number that is not above the magnitude.
def floor (p : Parts) : Nat :=
  p.numerator / p.denominator

-- The least natural number that is not below the magnitude.
def ceil (p : Parts) : Nat :=
  (p.numerator + (p.denominator - 1)) / p.denominator

-- The natural number nearest to the magnitude; a half goes up.
def nearest (p : Parts) : Nat :=
  (2 * p.numerator + p.denominator) / (2 * p.denominator)

end Parts

-- `none` beyond the finite numbers; a half goes away from zero.
def toNearest? (x : Float) : Option Int :=
  if x.isFinite then
    let p := parts x
    some (if p.negative then -(p.nearest : Int) else p.nearest)
  else
    none

-- The nearest natural number, held between `0` and `limit`; `0` when `x` is not a number.
def toNearestNat (limit : Nat) (x : Float) : Nat :=
  match toNearest? x with
  | some n => min n.toNat limit
  | none => if x > 0 then limit else 0

theorem toNearestNat_le (limit : Nat) (x : Float) : toNearestNat limit x ≤ limit := by
  unfold toNearestNat
  split
  · exact Nat.min_le_right _ _
  · split
    · exact Nat.le_refl _
    · exact Nat.zero_le _

-- The least whole number that is not below `x`; the sign of `x` stays, also on a zero.
def ceil (x : Float) : Float :=
  if x.isFinite then
    let p := parts x
    if p.negative then -(Float.ofNat p.floor) else Float.ofNat p.ceil
  else
    x

-- Position in the total order of all numbers: `-0.0` before `0.0`, not-a-number last.
def rank (x : Float) : Nat :=
  let bits := x.toBits.toNat
  if bits < signBit then bits + signBit else UInt64.size - 1 - bits

-- The larger of two numbers; one that is not a number loses to the other.
def larger (a b : Float) : Float :=
  if a.isNaN then b else if b > a then b else a

-- The smaller of two numbers; one that is not a number loses to the other.
def smaller (a b : Float) : Float :=
  if a.isNaN then b else if b < a then b else a

-- Added from the left; the sum of nothing is `-0.0`, which changes no number it is added to.
def sum (xs : List Float) : Float :=
  xs.foldl (· + ·) (-0.0)

-- Zero or above, and not beyond the finite numbers.
def isMeasure (x : Float) : Bool :=
  x.isFinite && !(x < 0)

-- A finite number is a multiple of the natural number `n`.
def isMultipleOf (n : Nat) (x : Float) : Bool :=
  x.isFinite &&
    let p := parts x
    p.numerator % (n * p.denominator) = 0

end ContainerSizing.Binary64
