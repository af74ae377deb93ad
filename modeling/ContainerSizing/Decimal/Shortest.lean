import ContainerSizing.Binary64.Basic
import ContainerSizing.Decimal.Power

namespace ContainerSizing.Decimal

open Binary64

-- A natural number of units of `10 ^ exponent`.
structure Digits where
  units : Nat
  exponent : Int
deriving DecidableEq, Repr

-- Positive `mantissa * 2 ^ exponent` against the grid of multiples of `10 ^ power`. Every quantity is
-- an integer multiple of one common unit: `step` between two grid points, `value` for the number,
-- `low` and `high` for the ends of the interval that rounds to it.
structure Grid where
  step : Nat
  value : Nat
  low : Nat
  high : Nat
  closed : Bool

-- In quarters of the mantissa's unit the interval reaches two down and two up. Above a power of
-- two the numbers below are twice as dense, so it reaches only one down. Its ends round to the
-- number itself when the mantissa is even.
def Grid.make (p : Parts) (power : Int) : Grid :=
  let quarter := powerOfTen (-power).toNat <<< (p.exponent - 2).toNat
  let dense := p.mantissa = hiddenBit ∧ p.exponent > -1074
  { step := powerOfTen power.toNat <<< (2 - p.exponent).toNat
    value := 4 * p.mantissa * quarter
    low := (4 * p.mantissa - if dense then 1 else 2) * quarter
    high := (4 * p.mantissa + 2) * quarter
    closed := p.mantissa % 2 = 0 }

namespace Grid

-- The grid point `units` lies in the interval.
def holds (g : Grid) (units : Nat) : Bool :=
  if g.closed then g.low ≤ units * g.step ∧ units * g.step ≤ g.high
  else g.low < units * g.step ∧ units * g.step < g.high

-- Of the two grid points around the number, the nearer one in the interval; a tie goes up.
def point? (g : Grid) : Option Nat :=
  let below := g.value / g.step
  let above := below + 1
  match g.holds below, g.holds above with
  | true, true =>
    some (if g.value - below * g.step < above * g.step - g.value then below else above)
  | true, false => some below
  | false, true => some above
  | false, false => none

theorem holds_of_point? {g : Grid} {n : Nat} (h : g.point? = some n) : g.holds n := by
  simp only [point?] at h
  split at h
  case h_1 below above =>
    split at h <;> (cases h; assumption)
  case h_2 below _ => cases h; exact below
  case h_3 _ above => cases h; exact above
  case h_4 => contradiction

end Grid

-- Tries ever finer grids, as the coarsest one with a point in the interval gives the fewest digits.
-- Twenty of them reach below the spacing of binary64 numbers.
def search (p : Parts) : Nat → Int → Digits
  | 0, power => ⟨(Grid.make p power).value / (Grid.make p power).step, power⟩
  | fuel + 1, power =>
    match (Grid.make p power).point? with
    | some units => ⟨units, power⟩
    | none => search p fuel (power - 1)

-- The shortest digits of a finite number's magnitude.
def shortest (p : Parts) : Digits :=
  if p.mantissa = 0 then ⟨0, 0⟩
  else
    -- `30103 / 100000` is just above the decimal logarithm of two
    let above := (p.mantissa.log2 + 1 + p.exponent) * 30103 / 100000 + 1
    search p 24 above

end ContainerSizing.Decimal
