import ContainerSizing.Proofs.Binary64.Nonnegative

namespace ContainerSizing.Binary64

open Float.Model Float.Model.UnpackedFloat

variable {x y z : Float}

-- A number without its sign. The bits of infinity read as the first number out of range.
def magnitude (x : Float) : ℚ :=
  (parts x).mantissa * 2 ^ (parts x).exponent

theorem magnitude_nonneg (x : Float) : 0 ≤ magnitude x := by
  unfold magnitude
  positivity

theorem decoded_of_not_isFinite (hx : IsNumber x) (hf : ¬x.isFinite) :
    decoded x = .infinity (sign x) ∧ x.toBits.toNat % hiddenBit = 0 := by
  have hm := toNat_mantissaBits x
  have hx : decoded x ≠ .notANumber := isNumber_iff.mp hx
  have hf : ¬(decoded x).isFinite = true := hf
  revert hx hf
  simp only [decoded, Float.Model.unpack, UnpackedFloat.unpack, sign_eq x]
  split
  case isTrue =>
    split
    case isTrue hz =>
      intro _ _
      refine ⟨rfl, ?_⟩
      rw [← hm, hz]
      rfl
    case isFalse => exact fun h => absurd rfl h
  case isFalse =>
    split
    · split <;> exact fun _ h => absurd rfl h
    · exact fun _ h => absurd rfl h

theorem value_eq_magnitude (hx : IsNumber x) : value x = signum (sign x) * magnitude x := by
  by_cases hf : x.isFinite
  case pos =>
    rw [value, decoded_eq_parts hf, magnitude]
    split
    case isTrue h => simp [number, h]
    case isFalse => rfl
  case neg =>
    obtain ⟨hd, hm⟩ := decoded_of_not_isFinite hx hf
    have he : x.toBits.toNat / hiddenBit % 2048 = 2047 := not_not.mp (mt isFinite_iff.mpr hf)
    have hp := parts_of_normal (x := x) (by omega)
    have hl : limit = (0 + hiddenBit : ℕ) * 2 ^ ((2047 : ℕ) - 1075 : ℤ) := by
      calc limit
        _ = 2 ^ (52 + 972 : ℤ) := rfl
        _ = 2 ^ (52 : ℤ) * 2 ^ (972 : ℤ) := zpow_add₀ two_ne_zero _ _
        _ = (0 + hiddenBit : ℕ) * 2 ^ ((2047 : ℕ) - 1075 : ℤ) := by
          rw [zero_add, show hiddenBit = 2 ^ 52 from rfl]
          norm_num
    rw [value, hd, number, magnitude, hp, he, hm, hl]

-- Bits compare by their exponents first, as mantissas with a leading bit do.
theorem magnitude_le (h : x.toBits.toNat % signBit ≤ y.toBits.toNat % signBit) :
    magnitude x ≤ magnitude y := by
  have hlex : (parts x).exponent < (parts y).exponent ∨
      (parts x).exponent = (parts y).exponent ∧ (parts x).mantissa ≤ (parts y).mantissa := by
    have hfx := Nat.mod_lt x.toBits.toNat (show hiddenBit > 0 by decide)
    rw [show signBit = hiddenBit * 2048 from rfl, Nat.mod_mul, Nat.mod_mul] at h
    by_cases hx : x.toBits.toNat / hiddenBit % 2048 = 0 <;>
      by_cases hy : y.toBits.toNat / hiddenBit % 2048 = 0
    · rw [parts_of_subnormal hx, parts_of_subnormal hy]
      rw [hx, hy] at h
      exact .inr ⟨rfl, h⟩
    · rw [parts_of_subnormal hx, parts_of_normal hy]
      simp only [hiddenBit, Nat.reduceShiftLeft] at *
      omega
    · rw [parts_of_normal hx, parts_of_subnormal hy]
      simp only [hiddenBit, Nat.reduceShiftLeft] at *
      omega
    · rw [parts_of_normal hx, parts_of_normal hy]
      simp only [hiddenBit, Nat.reduceShiftLeft] at *
      omega
  rw [magnitude, magnitude]
  cases hlex
  case inl he => exact ((canonical_parts x).mul_lt_mul_of_lt (canonical_parts y) he).le
  case inr he =>
    rw [he.left]
    have : ((parts x).mantissa : ℚ) ≤ (parts y).mantissa := by exact_mod_cast he.right
    gcongr

theorem value_le_of_rank_le (hx : IsNumber x) (hy : IsNumber y) (h : rank x ≤ rank y) :
    value x ≤ value y := by
  have hx₀ := magnitude_nonneg x
  have hy₀ := magnitude_nonneg y
  have hltx := x.toBits.toNat_lt
  have hlty := y.toBits.toNat_lt
  rw [value_eq_magnitude hx, value_eq_magnitude hy, sign, sign]
  simp only [rank, UInt64.size] at h
  cases hsx : isNegative x <;> cases hsy : isNegative y <;>
    simp only [isNegative, decide_eq_true_eq, decide_eq_false_iff_not, not_le] at hsx hsy
  case false.false =>
    rw [if_pos hsx, if_pos hsy] at h
    have := magnitude_le (x := x) (y := y) (by
      rw [Nat.mod_eq_of_lt hsx, Nat.mod_eq_of_lt hsy]
      omega)
    simpa [signum] using this
  case false.true =>
    rw [if_pos hsx, if_neg hsy.not_gt] at h
    simp only [signBit, Nat.reduceShiftLeft] at *
    omega
  case true.false =>
    simp only [signum]
    simp
    linarith
  case true.true =>
    rw [if_neg hsx.not_gt, if_neg hsy.not_gt] at h
    have := magnitude_le (x := y) (y := x) (by
      simp only [signBit, Nat.reduceShiftLeft] at *
      omega)
    simpa [signum] using this

protected theorem not_lt (hx : IsNumber x) (hy : IsNumber y) : ¬x < y ↔ y ≤ x := by
  rw [lt_iff_value_lt hx hy, le_iff_value_le hy hx, not_lt]

theorem value_le_of_le (h : x ≤ y) : value x ≤ value y :=
  have ⟨hx, hy⟩ := isNumber_of_le h
  (le_iff_value_le hx hy).mp h

theorem IsNonneg.of_zero_le (h : 0.0 ≤ x) : IsNonneg x :=
  ⟨(isNumber_of_le h).right, value_zero.symm.trans_le (value_le_of_le h)⟩

protected theorem le_refl (hx : IsNumber x) : x ≤ x :=
  (le_iff_value_le hx hx).mpr le_rfl

protected theorem le_trans (h : x ≤ y) (h' : y ≤ z) : x ≤ z := by
  have ⟨hx, hy⟩ := isNumber_of_le h
  have ⟨_, hz⟩ := isNumber_of_le h'
  rw [le_iff_value_le hx hy] at h
  rw [le_iff_value_le hy hz] at h'
  exact (le_iff_value_le hx hz).mpr (h.trans h')

protected theorem lt_of_le_of_lt (h : x ≤ y) (h' : y < z) : x < z := by
  have ⟨hx, hy⟩ := isNumber_of_le h
  have ⟨_, hz⟩ := isNumber_of_lt h'
  rw [le_iff_value_le hx hy] at h
  rw [lt_iff_value_lt hy hz] at h'
  exact (lt_iff_value_lt hx hz).mpr (h.trans_lt h')

theorem isNumber_larger (hx : IsNumber x) (hy : IsNumber y) : IsNumber (larger x y) := by
  unfold larger
  split_ifs <;> assumption

theorem value_larger (hx : IsNumber x) (hy : IsNumber y) :
    value (larger x y) = max (value x) (value y) := by
  have hn : ¬x.isNaN = true := by simpa [IsNumber] using hx
  rw [larger, if_neg hn]
  split
  case isTrue h => exact (max_eq_right ((lt_iff_value_lt hx hy).mp h).le).symm
  case isFalse h => exact (max_eq_left (not_lt.mp (mt (lt_iff_value_lt hx hy).mpr h))).symm

theorem value_smaller (hx : IsNumber x) (hy : IsNumber y) :
    value (smaller x y) = min (value x) (value y) := by
  have hn : ¬x.isNaN = true := by simpa [IsNumber] using hx
  rw [smaller, if_neg hn]
  split
  case isTrue h => exact (min_eq_right ((lt_iff_value_lt hy hx).mp h).le).symm
  case isFalse h => exact (min_eq_left (not_lt.mp (mt (lt_iff_value_lt hy hx).mpr h))).symm

-- The larger of two is not below the second, whether or not the first is a number.
theorem value_le_larger (hy : IsNumber y) : value y ≤ value (larger x y) := by
  by_cases hx : IsNumber x
  case pos => exact value_larger hx hy ▸ le_max_right _ _
  case neg =>
    have hx : x.isNaN = true := by simpa [IsNumber] using hx
    rw [larger, if_pos hx]

theorem value_le_limit (x : Float) : value x ≤ limit :=
  (abs_le.mp (representable_value x).bounded).right

theorem rounded_eq_limit {q : ℚ} (h : limit ≤ q) : rounded q = limit := by
  have hl : Representable limit := ⟨⟨1, 1024, by simp [limit], by norm_num, by norm_num⟩,
    (abs_of_pos limit_pos).le⟩
  apply le_antisymm
  · exact max_le (by linarith [limit_pos]) (min_le_left _ _)
  · exact (rounded_eq_self hl).ge.trans (rounded_monotone h)

theorem isNumber_infinity : IsNumber infinity := by
  unfold IsNumber
  decide +kernel

theorem value_infinity : value infinity = limit := by
  have hf : ¬infinity.isFinite := by decide +kernel
  have hs : isNegative infinity = false := by decide +kernel
  rw [value, (decoded_of_not_isFinite isNumber_infinity hf).left, sign, hs]
  exact one_mul _

-- Zero takes even infinity to a number of no value.

theorem decoded_of_value_eq_zero (hx : IsNumber x) (h : value x = 0) : ∃ s, decoded x = .zero s := by
  have hl := limit_pos
  have hx := isNumber_iff.mp hx
  rw [value] at h
  cases hd : decoded x <;> rw [hd] at h
  case notANumber => exact absurd hd hx
  case infinity s => cases s <;> simp [number, signum, hl.ne'] at h
  case zero s => exact ⟨s, rfl⟩
  case finite s m e hm =>
    have : (m * 2 ^ e : ℚ) ≠ 0 := by positivity
    cases s <;> simp [number, signum, this] at h

theorem value_mul_of_value_eq_zero (hx : IsNumber x) (h : value x = 0) : value (x * y) = 0 := by
  have ⟨s, hs⟩ := decoded_of_value_eq_zero hx h
  have hd : decoded (x * y) = decoded (encoded ((decoded x).mul .binary64 (decoded y))) := rfl
  rw [value, hd, hs]
  cases decoded y <;>
    simp [UnpackedFloat.mul, decoded_encoded_zero, decoded_encoded_notANumber, number]

namespace IsNonneg

theorem le_zero_iff (hx : IsNonneg x) : x ≤ 0.0 ↔ value x = 0 := by
  rw [le_iff_value_le hx.isNumber isNumber_zero, value_zero]
  exact ⟨fun h => h.antisymm hx.nonneg, le_of_eq⟩

theorem isFinite_of_le (hx : IsNonneg x) (hy : y.isFinite) (h : value x ≤ value y) : x.isFinite := by
  have hlt := (abs_lt.mp ((isFinite_iff_abs_value_lt (isNumber_of_isFinite hy)).mp hy)).right
  rw [isFinite_iff_abs_value_lt hx.isNumber, abs_of_nonneg hx.nonneg]
  exact h.trans_lt hlt

-- Infinity takes part in sums as the first number out of range.
theorem value_add (hx : IsNonneg x) (hy : IsNonneg y) :
    value (x + y) = rounded (value x + value y) := by
  have of_add (h : (decoded x).add .binary64 (decoded y) = .infinity .positive) :
      value (x + y) = limit := by
    apply value_eq_limit
    change decoded (encoded ((decoded x).add .binary64 (decoded y))) = _
    rw [h, decoded_encoded_infinity]
  rcases hx.finite_or_infinity with hx' | hx' <;> rcases hy.finite_or_infinity with hy' | hy'
  · exact Binary64.value_add hx' hy'
  · rw [of_add (hy' ▸ add_infinity hx'), value_eq_limit hy', rounded_eq_limit]
    linarith [hx.nonneg]
  · rw [of_add (hx' ▸ infinity_add hy'), value_eq_limit hx', rounded_eq_limit]
    linarith [hy.nonneg]
  · rw [of_add (by rw [hx', hy']; rfl), value_eq_limit hx', rounded_eq_limit]
    linarith [hy.nonneg]

theorem value_le_add_left (hx : IsNonneg x) (hy : IsNonneg y) : value x ≤ value (x + y) := by
  rw [hx.value_add hy]
  calc value x
    _ = rounded (value x) := (rounded_eq_self (representable_value x)).symm
    _ ≤ rounded (value x + value y) := rounded_monotone (by linarith [hy.nonneg])

theorem value_le_add_right (hx : IsNonneg x) (hy : IsNonneg y) : value y ≤ value (x + y) := by
  rw [hx.value_add hy]
  calc value y
    _ = rounded (value y) := (rounded_eq_self (representable_value y)).symm
    _ ≤ rounded (value x + value y) := rounded_monotone (by linarith [hx.nonneg])

theorem value_add_eq_zero_iff (hx : IsNonneg x) (hy : IsNonneg y) :
    value (x + y) = 0 ↔ value x = 0 ∧ value y = 0 := by
  constructor
  case mp =>
    intro h
    have := hx.value_le_add_left hy
    have := hx.value_le_add_right hy
    exact ⟨by linarith [hx.nonneg], by linarith [hy.nonneg]⟩
  case mpr =>
    intro ⟨h, h'⟩
    rw [hx.value_add hy, h, h', add_zero, rounded_zero]

theorem div (hx : IsNonneg x) (hx' : x.isFinite) (hy : IsNonneg y) (hy' : y.isFinite)
    (hz : value y ≠ 0) : IsNonneg (x / y) where
  isNumber := isNumber_div hx' hy' hz
  nonneg   := by
    rw [value_div hx' hy' hz]
    exact rounded_nonneg (div_nonneg hx.nonneg hy.nonneg)

theorem toFloat (n : UInt32) : IsNonneg n.toFloat :=
  ⟨isNumber_toFloat n, value_toFloat n ▸ Nat.cast_nonneg _⟩

theorem share (hx : IsNonneg x) (hx' : x.isFinite) (n : UInt32) :
    IsNonneg (if n > 0 then x / n.toFloat else 0.0) := by
  split
  case isFalse => exact isNonneg_zero
  case isTrue h =>
    have hn : n.toNat ≠ 0 := (UInt32.lt_iff_toNat_lt.mp h).ne'
    exact hx.div hx' (.toFloat n) (isFinite_toFloat n) (by rw [value_toFloat]; exact_mod_cast hn)

section Products

variable {u : UnpackedFloat} {x' y' : Float}

theorem infinity_mul (hf : u.isFinite) (h : 0 ≤ number u) :
    UnpackedFloat.mul .binary64 (.infinity .positive) u = .notANumber ∨
      UnpackedFloat.mul .binary64 (.infinity .positive) u = .infinity .positive := by
  cases u
  case infinity | notANumber => cases hf
  case zero => exact .inl rfl
  case finite s m e hm =>
    cases s
    case positive => exact .inr rfl
    case negative =>
      have hp : (0 : ℚ) < m * 2 ^ e := by positivity
      simp only [number, signum] at h
      linarith

theorem mul_infinity (hf : u.isFinite) (h : 0 ≤ number u) :
    u.mul .binary64 (.infinity .positive) = .notANumber ∨
      u.mul .binary64 (.infinity .positive) = .infinity .positive := by
  rw [mul_swap]
  exact infinity_mul hf h

-- A product with infinity is infinite, unless it is no number.
theorem value_mul_of_not_finite (hx : IsNonneg x) (hy : IsNonneg y)
    (hf : ¬(x.isFinite ∧ y.isFinite)) (h : IsNumber (x * y)) : value (x * y) = limit := by
  have hd : decoded (x * y) = decoded (encoded ((decoded x).mul .binary64 (decoded y))) := rfl
  have hm : (decoded x).mul .binary64 (decoded y) = .notANumber ∨
      (decoded x).mul .binary64 (decoded y) = .infinity .positive := by
    rcases hx.finite_or_infinity with hx' | hx' <;> rcases hy.finite_or_infinity with hy' | hy'
    · exact absurd ⟨hx', hy'⟩ hf
    · rw [hy']
      exact mul_infinity hx' hx.nonneg
    · rw [hx']
      exact infinity_mul hy' hy.nonneg
    · rw [hx', hy']
      exact .inr rfl
  cases hm
  case inl hm =>
    rw [hm] at hd
    exact absurd hd (isNumber_iff.mp h)
  case inr hm =>
    apply value_eq_limit
    rw [hd, hm, decoded_encoded_infinity]

theorem value_mul_le_mul (hx : IsNonneg x) (hy : IsNonneg y) (hx' : IsNonneg x') (hy' : IsNonneg y')
    (h : value x ≤ value x') (h' : value y ≤ value y') (hn : IsNumber (x' * y')) :
    value (x * y) ≤ value (x' * y') := by
  by_cases hf : x'.isFinite ∧ y'.isFinite
  case pos =>
    rw [value_mul (hx.isFinite_of_le hf.left h) (hy.isFinite_of_le hf.right h'),
      value_mul hf.left hf.right]
    exact rounded_monotone (mul_le_mul h h' hy.nonneg hx'.nonneg)
  case neg =>
    rw [hx'.value_mul_of_not_finite hy' hf hn]
    exact value_le_limit _

-- A factor of one or more takes nothing away.
theorem value_le_mul (hx : IsNonneg x) (hy : IsNonneg y) (hone : 1 ≤ value y)
    (hn : IsNumber (x * y)) : value x ≤ value (x * y) := by
  by_cases hf : x.isFinite ∧ y.isFinite
  case pos =>
    rw [value_mul hf.left hf.right]
    calc value x
      _ = rounded (value x) := (rounded_eq_self (representable_value x)).symm
      _ ≤ rounded (value x * value y) := rounded_monotone (le_mul_of_one_le_right hx.nonneg hone)
  case neg =>
    rw [hx.value_mul_of_not_finite hy hf hn]
    exact value_le_limit x

theorem isNumber_mul (hx : IsNonneg x) (hy : IsNonneg y) (hpx : 0 < value x) (hpy : 0 < value y) :
    IsNumber (x * y) := by
  have hd : decoded (x * y) = decoded (encoded ((decoded x).mul .binary64 (decoded y))) := rfl
  rcases hx.finite_or_infinity with hx' | hx' <;> rcases hy.finite_or_infinity with hy' | hy'
  · exact (hx.mul hy' hpy).isNumber
  · exact Binary64.mul_comm x y ▸ (hy.mul hx' hpx).isNumber
  · exact (hx.mul hy' hpy).isNumber
  · rw [hx', hy'] at hd
    exact (of_decoded_eq (hd.trans decoded_encoded_infinity)).isNumber

theorem pos_of_mul_pos (hx : IsNonneg x) (hy : IsNonneg y) (h : 0 < value (x * y)) :
    0 < value x ∧ 0 < value y := by
  constructor
  · refine hx.nonneg.lt_of_ne fun hz => ?_
    rw [value_mul_of_value_eq_zero hx.isNumber hz.symm] at h
    exact lt_irrefl _ h
  · refine hy.nonneg.lt_of_ne fun hz => ?_
    rw [Binary64.mul_comm, value_mul_of_value_eq_zero hy.isNumber hz.symm] at h
    exact lt_irrefl _ h

end Products

end IsNonneg

end ContainerSizing.Binary64
