import ContainerSizing.Proofs.Binary64.Order

namespace ContainerSizing.Binary64

open Float.Model Float.Model.UnpackedFloat

variable {x y : Float}

theorem eq_of_toBits_eq (h : x.toBits = y.toBits) : x = y := by
  obtain ⟨⟨b, _⟩⟩ := x
  obtain ⟨⟨c, _⟩⟩ := y
  obtain rfl : b = c := h
  rfl

-- Every number has a position of its own in the total order.
theorem rank_injective : Function.Injective rank := by
  intro x y h
  apply eq_of_toBits_eq
  rw [← UInt64.toNat_inj]
  have hx := x.toBits.toNat_lt
  have hy := y.toBits.toNat_lt
  simp only [rank, UInt64.size] at h
  split at h <;> split at h <;> simp only [signBit, Nat.reduceShiftLeft] at * <;> omega

-- The sign, the exponent and the mantissa take up all bits.
theorem eq_of_parts_eq (h : parts x = parts y) : x = y := by
  apply eq_of_toBits_eq
  rw [← UInt64.toNat_inj]
  have hx := x.toBits.toNat_lt
  have hy := y.toBits.toNat_lt
  have hs : isNegative x = isNegative y := by
    rw [← negative_parts, ← negative_parts, h]
  simp only [isNegative, decide_eq_decide] at hs
  have hm := congrArg Parts.mantissa h
  have he := congrArg Parts.exponent h
  have hxm := Nat.mod_lt x.toBits.toNat (show hiddenBit > 0 by decide)
  have hym := Nat.mod_lt y.toBits.toNat (show hiddenBit > 0 by decide)
  by_cases hxb : x.toBits.toNat / hiddenBit % 2048 = 0 <;>
    by_cases hyb : y.toBits.toNat / hiddenBit % 2048 = 0 <;>
    simp only [parts_of_subnormal, parts_of_normal, hxb, hyb, ne_eq, not_false_eq_true] at hm he <;>
    simp only [signBit, hiddenBit, Nat.reduceShiftLeft] at * <;> omega

theorem parts_eq_of_magnitude_eq (hs : isNegative x = isNegative y) (h : magnitude x = magnitude y) :
    parts x = parts y := by
  have hc := (canonical_parts x).compare_eq (canonical_parts y)
  rw [magnitude, magnitude] at h
  rw [compare_eq_iff_eq.mpr h, Ordering.then_eq_eq] at hc
  have hm := compare_eq_iff_eq.mp hc.right
  have he := compare_eq_iff_eq.mp hc.left
  rw [← negative_parts x, ← negative_parts y] at hs
  cases hp : parts x
  cases hq : parts y
  simp_all

theorem eq_of_value_eq (hx : IsNumber x) (hy : IsNumber y) (hs : isNegative x = isNegative y)
    (h : value x = value y) : x = y := by
  apply eq_of_parts_eq
  apply parts_eq_of_magnitude_eq hs
  have hsign : sign x = sign y := by rw [sign, sign, hs]
  rw [value_eq_magnitude hx, value_eq_magnitude hy, hsign] at h
  cases hc : sign y <;> simpa [hc, signum] using h

section Negation

theorem decoded_neg (x : Float) : decoded (-x) = (decoded x).neg := by
  change decoded (encoded (decoded x).neg) = _
  cases h : decoded x
  case infinity => exact decoded_encoded_infinity
  case notANumber => exact decoded_encoded_notANumber
  case zero => exact decoded_encoded_zero
  case finite =>
    exact decoded_encoded_finite (canonical_of_decoded h) (exponent_le_of_decoded h)

theorem value_neg (x : Float) : value (-x) = -value x := by
  rw [value, decoded_neg, number_neg, value]

theorem isNumber_neg : IsNumber (-x) ↔ IsNumber x := by
  rw [isNumber_iff, isNumber_iff, decoded_neg]
  cases decoded x <;> simp [UnpackedFloat.neg]

-- Away from zero the sign is that of the value.
theorem isNegative_iff (hx : IsNumber x) (hz : value x ≠ 0) : isNegative x = true ↔ value x < 0 := by
  rw [value_eq_magnitude hx] at hz ⊢
  have hm := (magnitude_nonneg x).lt_of_ne' (right_ne_zero_of_mul hz)
  cases h : isNegative x <;> simp [sign, h, signum, hm, hm.le]

theorem eq_of_value_eq_of_ne_zero (hx : IsNumber x) (hy : IsNumber y) (h : value x = value y)
    (hz : value x ≠ 0) : x = y := by
  apply eq_of_value_eq hx hy _ h
  rw [Bool.eq_iff_iff, isNegative_iff hx hz, isNegative_iff hy (h ▸ hz), h]

end Negation

end ContainerSizing.Binary64
