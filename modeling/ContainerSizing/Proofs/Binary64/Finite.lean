import ContainerSizing.Proofs.Binary64.Order

namespace ContainerSizing.Binary64

namespace IsNonneg

open Float.Model

variable {x y : Float}

theorem isFinite_iff (hx : IsNonneg x) : x.isFinite ↔ value x < limit := by
  rw [isFinite_iff_abs_value_lt hx.isNumber, abs_of_nonneg hx.nonneg]

-- One of two candidates is enough for the smaller one to be finite.
theorem isFinite_smaller_iff (hx : IsNonneg x) (hy : IsNonneg y) :
    (Binary64.smaller x y).isFinite ↔ x.isFinite ∨ y.isFinite := by
  rw [(hx.smaller hy).isFinite_iff, hx.isFinite_iff, hy.isFinite_iff,
    value_smaller hx.isNumber hy.isNumber, min_lt_iff]

-- A difference is no further from zero than the two it is made of.
theorem isFinite_sub (hx : IsNonneg x) (hx' : x.isFinite) (hy : IsNonneg y) (hy' : y.isFinite) :
    (x - y).isFinite := by
  have hle := rounded_monotone (show value x - value y ≤ value x by linarith [hy.nonneg])
  have hge := rounded_monotone (show -value y ≤ value x - value y by linarith [hx.nonneg])
  rw [rounded_eq_self (representable_value x)] at hle
  rw [rounded_neg, rounded_eq_self (representable_value y)] at hge
  have hlx := hx.isFinite_iff.mp hx'
  have hly := hy.isFinite_iff.mp hy'
  rw [isFinite_iff_abs_value_lt (isNumber_sub hx' hy'), value_sub hx' hy', abs_lt]
  exact ⟨by linarith, by linarith⟩

theorem infinity_div {u : UnpackedFloat} (hf : u.isFinite) (h : 0 < number u) :
    UnpackedFloat.div .binary64 (.infinity .positive) u = .infinity .positive := by
  cases u
  case infinity | notANumber => cases hf
  case zero => simp [number] at h
  case finite s m e hm =>
    cases s
    case positive => rfl
    case negative =>
      have hp : (0 : ℚ) < m * 2 ^ e := by positivity
      simp only [number, signum] at h
      linarith

-- Division by one or more neither leaves the range nor comes back to it.
theorem isFinite_div_iff (hx : IsNonneg x) (hy : y.isFinite) (hone : 1 ≤ value y) :
    (x / y).isFinite ↔ x.isFinite := by
  constructor
  case mp =>
    intro h
    by_contra hx'
    have hd : decoded (x / y) = decoded (encoded ((decoded x).div .binary64 (decoded y))) := rfl
    have hpos : 0 < value y := zero_lt_one.trans_le hone
    rw [hx.finite_or_infinity.resolve_left hx', infinity_div (u := decoded y) hy hpos,
      decoded_encoded_infinity] at hd
    have hf : (decoded (x / y)).isFinite = true := h
    rw [hd] at hf
    cases hf
  case mpr =>
    intro hx'
    have hz : value y ≠ 0 := by linarith
    have hn : IsNonneg y := ⟨isNumber_of_isFinite hy, by linarith⟩
    refine (hx.div hx' hn hy hz).isFinite_of_le hx' ?_
    rw [value_div hx' hy hz]
    calc rounded (value x / value y)
      _ ≤ rounded (value x) := rounded_monotone (div_le_self hx.nonneg hone)
      _ = value x := rounded_eq_self (representable_value x)

end IsNonneg

theorem rounded_le_two_pow {q : ℚ} {k : ℕ} (hk : k ≤ 1024) (h : q ≤ 2 ^ k) : rounded q ≤ 2 ^ k := by
  have hr : Representable (2 ^ k) := by
    refine ⟨⟨1, k, by simp, by norm_num, by omega⟩, ?_⟩
    rw [abs_of_pos (by positivity), limit]
    exact pow_le_pow_right₀ one_le_two hk
  exact (rounded_monotone h).trans_eq (rounded_eq_self hr)

-- A number that is neither below zero nor above a power of two.
structure IsUpTo (k : ℕ) (x : Float) : Prop where
  isNonneg : IsNonneg x
  value_le : value x ≤ 2 ^ k

theorem isUpTo_zero {k : ℕ} : IsUpTo k 0.0 :=
  ⟨isNonneg_zero, by rw [value_zero]; positivity⟩

namespace IsUpTo

variable {x y : Float} {j k : ℕ}

theorem mono (h : IsUpTo j x) (hle : j ≤ k) : IsUpTo k x :=
  ⟨h.isNonneg, h.value_le.trans (pow_le_pow_right₀ one_le_two hle)⟩

theorem isFinite (h : IsUpTo k x) (hk : k < 1024) : x.isFinite := by
  rw [h.isNonneg.isFinite_iff, limit]
  exact h.value_le.trans_lt (pow_lt_pow_right₀ one_lt_two hk)

theorem larger (hx : IsUpTo k x) (hy : IsUpTo k y) : IsUpTo k (Binary64.larger x y) where
  isNonneg := hy.isNonneg.larger
  value_le := by
    rw [value_larger hx.isNonneg.isNumber hy.isNonneg.isNumber]
    exact max_le hx.value_le hy.value_le

theorem add (hx : IsUpTo k x) (hy : IsUpTo k y) (hk : k < 1024) : IsUpTo (k + 1) (x + y) where
  isNonneg := hx.isNonneg.add hy.isNonneg
  value_le := by
    rw [hx.isNonneg.value_add hy.isNonneg]
    refine rounded_le_two_pow (by omega) ?_
    linarith [hx.value_le, hy.value_le, pow_succ (2 : ℚ) k]

theorem mul (hx : IsUpTo j x) (hy : IsUpTo k y) (h : j + k < 1024) : IsUpTo (j + k) (x * y) := by
  have hx' := hx.isFinite (by omega)
  have hy' := hy.isFinite (by omega)
  refine ⟨⟨isNumber_mul hx' hy', ?_⟩, ?_⟩ <;> rw [value_mul hx' hy']
  · exact rounded_nonneg (mul_nonneg hx.isNonneg.nonneg hy.isNonneg.nonneg)
  · refine rounded_le_two_pow h.le ?_
    rw [pow_add]
    exact mul_le_mul hx.value_le hy.value_le hy.isNonneg.nonneg (by positivity)

-- The divisor is not below the reciprocal of a power of two.
theorem div (hx : IsUpTo j x) (hy : IsNonneg y) (hy' : y.isFinite) (h : j + k < 1024)
    (hle : 1 ≤ value y * 2 ^ k) : IsUpTo (j + k) (x / y) := by
  have hx' := hx.isFinite (by omega)
  have hpos : 0 < value y := pos_of_mul_pos_left (zero_lt_one.trans_le hle) (by positivity)
  refine ⟨hx.isNonneg.div hx' hy hy' hpos.ne', ?_⟩
  rw [value_div hx' hy' hpos.ne']
  refine rounded_le_two_pow h.le ((div_le_iff₀ hpos).mpr ?_)
  calc value x
    _ ≤ 2 ^ j := hx.value_le
    _ ≤ 2 ^ j * (value y * 2 ^ k) := le_mul_of_one_le_right (by positivity) hle
    _ = 2 ^ (j + k) * value y := by ring

-- What is spread over pods does not get larger.
theorem share (hx : IsUpTo k x) (hk : k < 1024) (n : UInt32) :
    IsUpTo k (if n > 0 then x / n.toFloat else 0.0) := by
  split
  case isFalse => exact isUpTo_zero
  case isTrue h =>
    have hn : 1 ≤ n.toNat := UInt32.lt_iff_toNat_lt.mp h
    refine hx.div (k := 0) (.toFloat n) (isFinite_toFloat n) hk ?_
    rw [value_toFloat, pow_zero, mul_one]
    exact_mod_cast hn

end IsUpTo

end ContainerSizing.Binary64
