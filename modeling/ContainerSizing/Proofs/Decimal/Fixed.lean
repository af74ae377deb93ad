import ContainerSizing.Proofs.Json.Numeral

namespace ContainerSizing.Decimal

open Binary64

variable {places : ℕ} {q : ℚ} {x : Float}

def nearest (places : ℕ) (q : ℚ) : ℚ :=
  nearestEven (q * 10 ^ places) / 10 ^ places

theorem nearest_monotone (places : ℕ) : Monotone (nearest places) := by
  intro p q h
  have hle : (nearestEven (p * 10 ^ places) : ℚ) ≤ nearestEven (q * 10 ^ places) := by
    exact_mod_cast nearestEven_monotone (mul_le_mul_of_nonneg_right h (by positivity))
  exact div_le_div_of_nonneg_right hle (by positivity)

@[simp] theorem nearest_natCast (places n : ℕ) : nearest places n = n := by
  have hn : (n * 10 ^ places : ℚ) = (n * 10 ^ places : ℤ) := by push_cast; rfl
  rw [nearest, hn, nearestEven_intCast, ← hn, mul_div_cancel_right₀ _ (by positivity)]

theorem nearest_lt_iff {n : ℕ} (hn : Even n) : nearest places q < n ↔ q < n - 1 / 2 / 10 ^ places := by
  have hten : (0 : ℚ) < 10 ^ places := by positivity
  have heven : Even ((n * 10 ^ places : ℕ) : ℤ) := by exact_mod_cast hn.mul_right _
  have hlt : nearestEven (q * 10 ^ places) < ((n * 10 ^ places : ℕ) : ℤ) ↔
      (nearestEven (q * 10 ^ places) : ℚ) < n * 10 ^ places := by
    exact_mod_cast Iff.rfl
  rw [nearest, div_lt_iff₀ hten, ← hlt, nearestEven_lt_iff heven, sub_div' hten.ne', lt_div_iff₀ hten]
  push_cast
  rfl

theorem roundDiv_eq {n d : ℕ} (hd : 0 < d) : (roundDiv n d : ℤ) = nearestEven (n / d) := by
  have hfloor : ⌊(n / d : ℚ)⌋ = (n / d : ℕ) := Rat.floor_natCast_div_natCast n d
  have hfract : Int.fract (n / d : ℚ) = (n % d : ℕ) / d := Int.fract_div_natCast_eq_div_natCast_mod
  have hd' : (0 : ℚ) < d := by exact_mod_cast hd
  have hlt : Int.fract (n / d : ℚ) < 1 / 2 ↔ 2 * (n % d) < d := by
    rw [hfract, div_lt_div_iff₀ hd' two_pos, one_mul, mul_comm]
    exact_mod_cast Iff.rfl
  have hgt : 1 / 2 < Int.fract (n / d : ℚ) ↔ d < 2 * (n % d) := by
    rw [hfract, div_lt_div_iff₀ two_pos hd', one_mul, mul_comm]
    exact_mod_cast Iff.rfl
  simp only [nearestEven, roundDiv, hlt, hgt, hfloor]
  split_ifs <;> norm_cast

theorem scaled_eq (places : ℕ) (x : Float) :
    (scaled places (parts x) : ℤ) = nearestEven (magnitude x * 10 ^ places) := by
  have hten : powerOfTen places = 10 ^ places := rfl
  have hq : (magnitude x * 10 ^ places : ℚ) =
      ((parts x).numerator * 10 ^ places : ℕ) / (parts x).denominator := by
    rw [← numerator_div_denominator]
    push_cast
    ring
  rw [scaled, roundDiv_eq (parts x).denominator_pos, hten, hq]

-- The places come back, and with them the rounded value, on both sides of zero.
theorem numeral?_fixed {rest : List Char} (places : ℕ) (hx : x.isFinite)
    (hr : Json.Parser.Ends rest) :
    ∃ n : Numeral, Json.Parser.numeral? ((fixed places x).toList ++ rest) = some (n, rest) ∧
      n.denoted = nearest places (value x) := by
  have hnan : x.isNaN = false := isNumber_of_isFinite hx
  have htext : fixed places x = signed (isNegative x) (pointed places (scaled places (parts x))) := by
    rw [fixed, write, if_neg (Bool.eq_false_iff.mp hnan), if_pos hx]
  obtain ⟨integral, hread⟩ : ∃ integral,
      Json.Parser.numeral? ((fixed places x).toList ++ rest) =
        some (⟨isNegative x, scaled places (parts x), -places, integral⟩, rest) := by
    rw [htext]
    cases places
    case zero => exact ⟨true, Numeral.numeral?_digits hr⟩
    case succ k => exact ⟨false, Numeral.numeral?_pointed k.succ_pos hr⟩
  refine ⟨_, hread, ?_⟩
  have hscaled : ((scaled places (parts x) : ℕ) : ℚ) = nearestEven (magnitude x * 10 ^ places) := by
    exact_mod_cast scaled_eq places x
  rw [Numeral.denoted, hscaled, zpow_neg, zpow_natCast, ← div_eq_mul_inv, nearest,
    value_eq_magnitude (isNumber_of_isFinite hx), sign]
  cases isNegative x
  case false => simp [signum]
  case true => simp [signum, nearestEven_neg, neg_div]

end ContainerSizing.Decimal
