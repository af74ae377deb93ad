import ContainerSizing.Proofs.Decimal.Numeral

namespace ContainerSizing

open Binary64

namespace Decimal

variable {p : Parts} {power : ℤ} {units : ℕ}

-- The two ends of the reals that round to a positive number. They lie half a unit of the mantissa
-- away, but only a quarter below a power of two, where numbers are twice as dense.

def lower (p : Parts) : ℚ :=
  (4 * p.mantissa - if p.mantissa = hiddenBit ∧ p.exponent > -1074 then 1 else 2) *
    2 ^ (p.exponent - 2)

def upper (p : Parts) : ℚ :=
  (4 * p.mantissa + 2) * 2 ^ (p.exponent - 2)

-- The ends themselves round to an even mantissa.
def Within (p : Parts) (q : ℚ) : Prop :=
  if p.mantissa % 2 = 0 then lower p ≤ q ∧ q ≤ upper p else lower p < q ∧ q < upper p

section Grid

theorem zpow_mul_pow_toNat {a : ℚ} (ha : a ≠ 0) (k : ℤ) : a ^ k * a ^ (-k).toNat = a ^ k.toNat := by
  rw [← zpow_natCast, ← zpow_natCast, ← zpow_add₀ ha]
  congr 1
  omega

-- The unit that all quantities of a grid share.
def quarter (p : Parts) (power : ℤ) : ℕ :=
  powerOfTen (-power).toNat <<< (p.exponent - 2).toNat

theorem quarter_pos : 0 < quarter p power :=
  Nat.shiftLeft_pos_iff.mpr (powerOfTen_pos _)

-- The share of a rational number that lies on such a unit.
def share (p : Parts) (power : ℤ) : ℚ :=
  quarter p power / 2 ^ (p.exponent - 2)

theorem share_pos : 0 < share p power := by
  have : (0 : ℚ) < quarter p power := by exact_mod_cast quarter_pos
  unfold share
  positivity

theorem cast_mul_quarter (n : ℕ) :
    ((n * quarter p power : ℕ) : ℚ) = n * 2 ^ (p.exponent - 2) * share p power := by
  rw [share, mul_assoc, mul_div_cancel₀ _ (by positivity)]
  push_cast
  rfl

theorem cast_mul_step (n : ℕ) :
    ((n * (Grid.make p power).step : ℕ) : ℚ) = n * 10 ^ power * share p power := by
  have h10 := zpow_mul_pow_toNat (a := 10) (by norm_num) power
  have h2 := zpow_mul_pow_toNat (a := 2) (by norm_num) (2 - p.exponent)
  have hinv : (2 : ℚ) ^ (2 - p.exponent) = (2 ^ (p.exponent - 2))⁻¹ := by
    rw [← zpow_neg, neg_sub]
  rw [neg_sub] at h2
  simp only [share, Grid.make, quarter, powerOfTen, Nat.pow_eq, Nat.shiftLeft_eq]
  push_cast
  rw [← h10, ← h2, hinv]
  ring

theorem cast_low (hm : 0 < p.mantissa) :
    ((Grid.make p power).low : ℚ) = lower p * share p power := by
  refine (cast_mul_quarter _).trans ?_
  rw [lower, Nat.cast_sub (by split_ifs <;> omega)]
  push_cast
  rfl

theorem cast_high : ((Grid.make p power).high : ℚ) = upper p * share p power := by
  refine (cast_mul_quarter _).trans ?_
  push_cast
  rfl

theorem holds_make (hm : 0 < p.mantissa) :
    (Grid.make p power).holds units ↔ Within p (units * 10 ^ power) := by
  have hclosed : (Grid.make p power).closed = decide (p.mantissa % 2 = 0) := rfl
  rw [Grid.holds, Within, hclosed]
  simp only [← Nat.cast_le (α := ℚ), ← Nat.cast_lt (α := ℚ), cast_mul_step, cast_low hm, cast_high,
    mul_le_mul_iff_left₀ share_pos, mul_lt_mul_iff_left₀ share_pos]
  split_ifs <;> simp_all

-- A grid as fine as a quarter of the mantissa's unit has a point just below the number.
theorem holds_floor (hm : 0 < p.mantissa) (h : (10 : ℚ) ^ power ≤ 2 ^ (p.exponent - 2)) :
    (Grid.make p power).holds ((Grid.make p power).value / (Grid.make p power).step) := by
  have hstep : (Grid.make p power).step ≤ quarter p power := by
    rw [← one_mul (quarter p power), ← one_mul (Grid.step _), ← Nat.cast_le (α := ℚ), cast_mul_step,
      cast_mul_quarter, mul_le_mul_iff_left₀ share_pos]
    simpa using h
  have hpos : 0 < (Grid.make p power).step := Nat.shiftLeft_pos_iff.mpr (powerOfTen_pos _)
  have hquarter : 0 < quarter p power := quarter_pos
  have hle := Nat.div_mul_le_self (Grid.make p power).value (Grid.make p power).step
  have hlt := Nat.lt_div_mul_add (a := (Grid.make p power).value) hpos
  have hlow : (Grid.make p power).low + quarter p power ≤ (Grid.make p power).value := by
    change (4 * p.mantissa - ite _ _ _) * quarter p power + quarter p power ≤
      4 * p.mantissa * quarter p power
    rw [← Nat.succ_mul]
    exact Nat.mul_le_mul_right _ (by split_ifs <;> omega)
  have hhigh : (Grid.make p power).value < (Grid.make p power).high :=
    Nat.mul_lt_mul_of_pos_right (by omega) hquarter
  have hlo : (Grid.make p power).low <
      (Grid.make p power).value / (Grid.make p power).step * (Grid.make p power).step := by omega
  have hhi : (Grid.make p power).value / (Grid.make p power).step * (Grid.make p power).step <
      (Grid.make p power).high := by omega
  simp [Grid.holds, hlo, hlo.le, hhi, hhi.le]

end Grid

-- The search ends at a grid point inside the interval, at the latest where the grid is that fine.
theorem within_search (hm : 0 < p.mantissa) {fuel : ℕ}
    (h : (10 : ℚ) ^ (power - fuel) ≤ 2 ^ (p.exponent - 2)) :
    Within p ((search p fuel power).units * 10 ^ (search p fuel power).exponent) := by
  induction fuel generalizing power
  case zero =>
    rw [search]
    exact (holds_make hm).mp (holds_floor hm (by simpa using h))
  case succ fuel hi =>
    rw [search]
    split
    case h_1 n hn => exact (holds_make hm).mp (Grid.holds_of_point? hn)
    case h_2 => exact hi (by rwa [sub_sub, add_comm 1, ← Nat.cast_succ])

theorem ten_zpow_le_two_zpow {k n : ℤ} (h : k * 100000 ≤ n * 30102) (h' : k * 100000 ≤ n * 30103) :
    (10 : ℚ) ^ k ≤ 2 ^ n := by
  rcases le_or_gt 0 k with hk | hk
  case inl =>
    obtain ⟨i, rfl⟩ := Int.eq_ofNat_of_zero_le hk
    obtain ⟨j, rfl⟩ := Int.eq_ofNat_of_zero_le (show 0 ≤ n by omega)
    rw [zpow_natCast, zpow_natCast]
    exact_mod_cast ten_pow_le_two_pow (m := i) (n := j) (by omega)
  case inr =>
    rcases le_or_gt 0 n with hn | hn
    case inl =>
      calc (10 : ℚ) ^ k
        _ ≤ 10 ^ (0 : ℤ) := zpow_le_zpow_right₀ (by norm_num) hk.le
        _ = 2 ^ (0 : ℤ) := by rw [zpow_zero, zpow_zero]
        _ ≤ 2 ^ n := zpow_le_zpow_right₀ one_le_two hn
    case inr =>
      obtain ⟨i, rfl⟩ := Int.exists_eq_neg_ofNat hk.le
      obtain ⟨j, rfl⟩ := Int.exists_eq_neg_ofNat hn.le
      rw [zpow_neg, zpow_neg, zpow_natCast, zpow_natCast]
      apply inv_anti₀ (by positivity)
      exact_mod_cast two_pow_le_ten_pow (m := j) (n := i) (by omega)

theorem within_shortest (hc : Canonical p.mantissa p.exponent) (hm : 0 < p.mantissa)
    (he : p.exponent ≤ 971) :
    Within p ((shortest p).units * 10 ^ (shortest p).exponent) := by
  have hlog := (Nat.log2_lt hm.ne').mpr hc.lt_two_pow
  have hle := hc.least_le
  rw [shortest, if_neg hm.ne']
  apply within_search hm
  apply ten_zpow_le_two_zpow <;> push_cast <;> omega

namespace Within

variable {q : ℚ}

theorem lower_le (h : Within p q) : lower p ≤ q := by
  rw [Within] at h
  split at h
  · exact h.left
  · exact h.left.le

theorem le_upper (h : Within p q) : q ≤ upper p := by
  rw [Within] at h
  split at h
  · exact h.right
  · exact h.right.le

-- At most half a unit away, and less than that for an odd mantissa.
theorem nearestEven_eq (h : Within p q) : nearestEven (q / 2 ^ p.exponent) = p.mantissa := by
  have hpow : (2 : ℚ) ^ p.exponent = 4 * 2 ^ (p.exponent - 2) := by
    rw [zpow_sub₀ two_ne_zero]
    norm_num
    ring
  have hpos : (0 : ℚ) < 2 ^ p.exponent := by positivity
  have hlower : (p.mantissa - 1 / 2) * 2 ^ p.exponent ≤ lower p := by
    rw [lower, hpow, ← mul_assoc]
    gcongr
    split_ifs <;> linarith
  have hupper : upper p = (p.mantissa + 1 / 2) * 2 ^ p.exponent := by
    rw [upper, hpow]
    ring
  by_cases he : p.mantissa % 2 = 0
  case pos =>
    apply nearestEven_eq_of_even (by exact_mod_cast Nat.even_iff.mpr he)
    have hlo := (le_div_iff₀ hpos).mpr (hlower.trans h.lower_le)
    have hhi := (div_le_iff₀ hpos).mpr (h.le_upper.trans hupper.le)
    rw [abs_le, Int.cast_natCast]
    constructor <;> linarith
  case neg =>
    rw [Within, if_neg he] at h
    apply nearestEven_eq_of_abs_lt
    have hlo := (lt_div_iff₀ hpos).mpr (hlower.trans_lt h.left)
    have hhi := (div_lt_iff₀ hpos).mpr (h.right.trans_eq hupper)
    rw [abs_lt, Int.cast_natCast]
    constructor <;> linarith

theorem pos (h : Within p q) (hm : 0 < p.mantissa) : 0 < q := by
  refine lt_of_lt_of_le ?_ h.lower_le
  have : (1 : ℚ) ≤ p.mantissa := by exact_mod_cast hm
  rw [lower]
  apply mul_pos _ (by positivity)
  split_ifs <;> linarith

theorem lt_two_zpow (h : Within p q) (hc : Canonical p.mantissa p.exponent) :
    q < 2 ^ (p.exponent + 53) := by
  have hm : (p.mantissa + 1 : ℚ) ≤ 2 ^ 53 := by exact_mod_cast hc.lt_two_pow
  calc q
    _ ≤ (4 * p.mantissa + 2) * 2 ^ (p.exponent - 2) := h.le_upper
    _ < 2 ^ 55 * 2 ^ (p.exponent - 2) := by
      gcongr
      linarith
    _ = 2 ^ (p.exponent + 53) := by
      rw [← zpow_natCast, ← zpow_add₀ two_ne_zero]
      congr 1
      push_cast
      ring

-- Just below a power of two numbers have the exponent before, and the power of two is even there.
theorem onGrid_eq_of_lt (h : Within p q) (hc : Canonical p.mantissa p.exponent)
    (hpos : 0 < q) (hg : gridExponent q < p.exponent) : onGrid q = p.mantissa * 2 ^ p.exponent := by
  have hgrid := hg
  rw [gridExponent, abs_of_pos hpos, max_lt_iff] at hgrid
  have hunit : (0 : ℚ) < 2 ^ (p.exponent - 2) := by positivity
  have hpow (k : ℕ) : (2 : ℚ) ^ (p.exponent - 2 + k) = 2 ^ k * 2 ^ (p.exponent - 2) := by
    rw [zpow_add₀ two_ne_zero, zpow_natCast, mul_comm]
  have hlt : q < 2 ^ 54 * 2 ^ (p.exponent - 2) := by
    rw [← hpow]
    exact (Int.lt_zpow_iff_log_lt one_lt_two hpos).mpr (by push_cast; omega)
  -- only the least mantissa with a leading bit reaches down that far
  have hm : p.mantissa = hiddenBit := by
    have hle : (4 * p.mantissa - 2 : ℚ) * 2 ^ (p.exponent - 2) ≤ lower p := by
      rw [lower]
      gcongr
      split_ifs <;> norm_num
    have := (mul_lt_mul_iff_left₀ hunit).mp ((hle.trans h.lower_le).trans_lt hlt)
    have : (p.mantissa : ℚ) < 2 ^ 52 + 1 := by linarith
    have : p.mantissa < 2 ^ 52 + 1 := by exact_mod_cast this
    have := hc.full.resolve_right (by omega)
    simp only [hiddenBit]
    omega
  have hlower : (2 ^ 54 - 1 : ℚ) * 2 ^ (p.exponent - 2) ≤ q := by
    refine le_of_eq_of_le ?_ h.lower_le
    rw [lower, if_pos ⟨hm, hgrid.right⟩, hm, hiddenBit]
    norm_num [Nat.shiftLeft_eq]
  have heq : gridExponent q = p.exponent - 1 := by
    have hle : (2 : ℚ) ^ (p.exponent - 2 + (53 : ℕ)) ≤ q := by
      rw [hpow]
      refine le_trans ?_ hlower
      gcongr
      norm_num
    have := (Int.zpow_le_iff_le_log one_lt_two hpos).mp hle
    rw [gridExponent, abs_of_pos hpos]
    push_cast at this
    omega
  have hhalf : (2 : ℚ) ^ (p.exponent - 1) = 2 * 2 ^ (p.exponent - 2) := by
    have := hpow 1
    rw [pow_one] at this
    rw [← this]
    congr 1
    push_cast
    ring
  have hn : nearestEven (q / 2 ^ (p.exponent - 1)) = 2 ^ 53 := by
    apply nearestEven_eq_of_even (by decide)
    have hlo : (2 ^ 53 - 1 / 2 : ℚ) ≤ q / (2 * 2 ^ (p.exponent - 2)) := by
      rw [le_div_iff₀ (by positivity)]
      linarith
    have hhi : q / (2 * 2 ^ (p.exponent - 2)) ≤ (2 ^ 53 : ℚ) := by
      rw [div_le_iff₀ (by positivity)]
      linarith
    rw [hhalf, abs_le]
    push_cast
    constructor <;> linarith
  have hpow : (2 : ℚ) ^ p.exponent = 2 * 2 ^ (p.exponent - 1) := by
    rw [← zpow_one_add₀ two_ne_zero]
    congr 1
    ring
  rw [onGrid, heq, hn, hm, hpow, hiddenBit]
  norm_num [Nat.shiftLeft_eq]
  ring

theorem onGrid_eq (h : Within p q) (hc : Canonical p.mantissa p.exponent) (hm : 0 < p.mantissa) :
    onGrid q = p.mantissa * 2 ^ p.exponent := by
  have hpos := h.pos hm
  have hle : gridExponent q ≤ p.exponent :=
    gridExponent_le hpos.ne' (by rw [abs_of_pos hpos]; exact h.lt_two_zpow hc) hc.least_le
  rcases hle.lt_or_eq with hlt | heq
  case inl => exact h.onGrid_eq_of_lt hc hpos hlt
  case inr => rw [onGrid, heq, h.nearestEven_eq, Int.cast_natCast]

end Within

end Decimal

namespace Numeral

variable {x : Float}

-- Zeros that are filled in change nothing about what is denoted.
theorem denoted_ofFloat (x : Float) : (ofFloat x).denoted = signum (sign x) *
    ((Decimal.shortest (parts x)).units * 10 ^ (Decimal.shortest (parts x)).exponent) := by
  have hs : (if isNegative x then -1 else 1 : ℚ) = signum (sign x) := by
    rw [sign]
    cases isNegative x <;> rfl
  simp only [ofFloat]
  split
  case isFalse => simp only [denoted, hs]
  case isTrue h =>
    have hpow : (10 : ℚ) ^ (Decimal.shortest (parts x)).exponent =
        10 ^ (Decimal.shortest (parts x)).exponent.toNat := by
      rw [← zpow_natCast, Int.toNat_of_nonneg h.left]
    have hten : Decimal.powerOfTen (Decimal.shortest (parts x)).exponent.toNat =
        10 ^ (Decimal.shortest (parts x)).exponent.toNat := rfl
    simp only [denoted, hs, hpow, Decimal.powerOfTen_succ, hten]
    push_cast
    ring

theorem onGrid_denoted_ofFloat (hx : x.isFinite) (hm : 0 < (parts x).mantissa) :
    onGrid (ofFloat x).denoted = value x := by
  have h := (Decimal.within_shortest (canonical_parts x) hm (exponent_parts_le hx)).onGrid_eq
    (canonical_parts x) hm
  rw [denoted_ofFloat, onGrid_signum_mul, h, value_eq_magnitude (isNumber_of_isFinite hx), magnitude]

theorem mantissa_ofFloat_of_zero (hm : (parts x).mantissa = 0) : (ofFloat x).mantissa = 0 := by
  simp only [ofFloat]
  split <;> simp [Decimal.shortest, hm]

theorem negative_ofFloat (x : Float) : (ofFloat x).negative = isNegative x := by
  simp only [ofFloat]
  split <;> rfl

-- A finite number comes back as it was, with the sign of a zero.
theorem toFloat_ofFloat (hx : x.isFinite) : (ofFloat x).toFloat = x := by
  have hn := isNumber_of_isFinite hx
  rcases Nat.eq_zero_or_pos (parts x).mantissa with hm | hm
  case inl =>
    have hz : (ofFloat x).toFloat = if isNegative x then -0.0 else 0.0 := by
      rw [toFloat, mantissa_ofFloat_of_zero hm, negative_ofFloat]
      rfl
    apply eq_of_value_eq (isNumber_toFloat _) hn
    · rw [hz]
      cases isNegative x <;> decide +kernel
    · rw [value_eq_magnitude hn, magnitude, hm, Nat.cast_zero, zero_mul, mul_zero, hz]
      split
      · rw [value_neg, value_zero, neg_zero]
      · exact value_zero
  case inr =>
    have hv : value (ofFloat x).toFloat = value x := by
      have hb := abs_le.mp (representable_value x).bounded
      rw [value_toFloat, rounded, onGrid_denoted_ofFloat hx hm, min_eq_right hb.right,
        max_eq_right hb.left]
    apply eq_of_value_eq_of_ne_zero (isNumber_toFloat _) hn hv
    rw [hv, value_eq_magnitude hn]
    have : 0 < magnitude x := by unfold magnitude; positivity
    cases sign x <;> simp [signum, this.ne']

end Numeral

end ContainerSizing
