import ContainerSizing.Decimal.Shortest

namespace ContainerSizing.Decimal

open Binary64

-- Digits of `n`, filled with zeros on the left up to `width`.
def padded (width n : Nat) : String :=
  let digits := toString n
  "".pushn '0' (width - digits.length) ++ digits

-- Splits the last `places` digits of `n` off behind a point; no point when there are none.
def pointed (places n : Nat) : String :=
  if places = 0 then toString n
  else toString (n / powerOfTen places) ++ "." ++ padded places (n % powerOfTen places)

def signed (negative : Bool) (magnitude : String) : String :=
  if negative then "-" ++ magnitude else magnitude

-- Numbers without digits have names; all others are written by `magnitude` behind their sign.
def write (magnitude : Parts → String) (x : Float) : String :=
  if x.isNaN then "NaN"
  else signed (isNegative x) (if x.isFinite then magnitude (parts x) else "inf")

-- The shortest digits that read back, never with an exponent and never with a bare point.
def plain (x : Float) : String :=
  write (fun p =>
    let d := shortest p
    if 0 ≤ d.exponent then toString (d.units * powerOfTen d.exponent.toNat)
    else pointed (-d.exponent).toNat d.units) x

-- A quotient rounded to the nearest natural number; a half goes to the even neighbour.
def roundDiv (n d : Nat) : Nat :=
  let q := n / d
  let r := n % d
  if 2 * r < d then q
  else if d < 2 * r then q + 1
  else q + q % 2

-- The exact magnitude in units of `10 ^ -places`, rounded.
def scaled (places : Nat) (p : Parts) : Nat :=
  roundDiv (p.numerator * powerOfTen places) p.denominator

-- Exactly `places` digits behind the point; the sign stays on a number that rounds to zero.
def fixed (places : Nat) (x : Float) : String :=
  write (fun p => pointed places (scaled places p)) x

end ContainerSizing.Decimal
