import ContainerSizing.Proofs.Decimal.Numeral

namespace ContainerSizing.Binary64

variable {x y : Float} {n d : ℕ}

-- However large it is, a natural number becomes the nearest float.
theorem isNumber_and_value_ofNat (n : ℕ) : IsNumber (.ofNat n) ∧ value (.ofNat n) = rounded n := by
  rcases Nat.eq_zero_or_pos n with rfl | hn
  case inl =>
    have h : Float.ofNat 0 = 0.0 := by decide +kernel
    rw [h]
    exact ⟨isNumber_zero, by simp⟩
  case inr =>
    have h := isNumber_and_value_ofScientific (e := 0) hn (by omega) (by norm_num)
    simp only [lt_irrefl, decide_false, Int.natAbs_zero, zpow_zero, mul_one] at h
    exact h

section Parts

theorem ceil_natCast_div (hd : 0 < d) : ⌈(n / d : ℚ)⌉ = ((n + (d - 1)) / d : ℕ) := by
  have hle := Nat.div_mul_le_self (n + (d - 1)) d
  have hlt := Nat.lt_div_mul_add (a := n + (d - 1)) hd
  generalize (n + (d - 1)) / d = q at *
  have hd' : (0 : ℚ) < d := by exact_mod_cast hd
  rw [Int.ceil_eq_iff, Int.cast_natCast, lt_div_iff₀ hd', div_le_iff₀ hd']
  constructor
  · have : q * d < n + d := by omega
    have : (q * d : ℚ) < n + d := by exact_mod_cast this
    linarith
  · have : n ≤ q * d := by omega
    exact_mod_cast this

theorem floor_parts (x : Float) : ((parts x).floor : ℤ) = ⌊magnitude x⌋ := by
  rw [← numerator_div_denominator, Rat.floor_natCast_div_natCast, Parts.floor]
  rfl

theorem ceil_parts (x : Float) : ((parts x).ceil : ℤ) = ⌈magnitude x⌉ := by
  rw [← numerator_div_denominator, ceil_natCast_div (parts x).denominator_pos, Parts.ceil]

end Parts

theorem representable_intCast {n : ℤ} (h : |n| ≤ 2 ^ 53) : Representable n where
  multiple := ⟨n, 0, by simp, h, by norm_num⟩
  bounded  := by
    have h : |(n : ℚ)| ≤ 2 ^ 53 := by exact_mod_cast h
    exact h.trans (pow_le_pow_right₀ one_le_two (by norm_num))

-- A number that has a fraction is so small that every whole number around it has a float of its own.
theorem representable_ceil {q : ℚ} (h : Representable q) : Representable ⌈q⌉ := by
  obtain ⟨m, e, hq, hm, -⟩ := h.multiple
  by_cases he : 0 ≤ e
  case pos =>
    have hw : q = (m * 2 ^ e.toNat : ℤ) := by
      rw [hq]
      push_cast
      rw [← zpow_natCast, Int.toNat_of_nonneg he]
    have : (⌈q⌉ : ℚ) = q := by rw [hw, Int.ceil_intCast]
    rwa [this]
  case neg =>
    -- what has a fraction lies below the mantissas of 54 bits
    have hle : |q| ≤ 2 ^ 53 := by
      have hm : (|m| : ℚ) ≤ 2 ^ 53 := by exact_mod_cast hm
      have hp : (2 : ℚ) ^ e ≤ 1 := zpow_le_one_of_nonpos₀ one_le_two (by omega)
      rw [hq, abs_mul, abs_of_pos (a := (2 : ℚ) ^ e) (by positivity)]
      exact (mul_le_of_le_one_right (abs_nonneg _) hp).trans hm
    have ⟨hlo, hhi⟩ := abs_le.mp hle
    apply representable_intCast
    rw [abs_le]
    constructor
    · have := hlo.trans (Int.le_ceil q)
      exact_mod_cast this
    · rw [Int.ceil_le]
      exact_mod_cast hhi

theorem isNumber_ceil (hx : x.isFinite) : IsNumber (ceil x) := by
  rw [ceil, if_pos hx]
  simp only
  split
  · exact isNumber_neg.mpr (isNumber_and_value_ofNat _).left
  · exact (isNumber_and_value_ofNat _).left

theorem value_ceil (hx : x.isFinite) : value (ceil x) = ⌈value x⌉ := by
  have hr := rounded_eq_self (representable_ceil (representable_value x))
  rw [← hr, ceil, if_pos hx, value_eq_magnitude (isNumber_of_isFinite hx), sign]
  simp only [negative_parts]
  cases isNegative x
  case false =>
    have hc : ((parts x).ceil : ℚ) = ⌈magnitude x⌉ := by exact_mod_cast ceil_parts x
    simp [signum, (isNumber_and_value_ofNat _).right, hc]
  case true =>
    have hf : ((parts x).floor : ℚ) = ⌊magnitude x⌋ := by exact_mod_cast floor_parts x
    simp [signum, value_neg, (isNumber_and_value_ofNat _).right, hf, Int.ceil_neg, rounded_neg]

theorem value_ceil_mono (hx : x.isFinite) (hy : y.isFinite) (h : value x ≤ value y) :
    value (ceil x) ≤ value (ceil y) := by
  rw [value_ceil hx, value_ceil hy]
  exact_mod_cast Int.ceil_le_ceil h

end ContainerSizing.Binary64
