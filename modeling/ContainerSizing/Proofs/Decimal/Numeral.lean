import ContainerSizing.Decimal.Numeral
import ContainerSizing.Proofs.Binary64.Identity
import ContainerSizing.Proofs.Binary64.Nearest

namespace ContainerSizing

open Binary64

namespace Decimal

-- `30102 / 100000` and `30103 / 100000` enclose the decimal logarithm of two.
theorem ten_pow_le_two_pow {m n : ℕ} (h : m * 100000 ≤ n * 30102) : 10 ^ m ≤ 2 ^ n := by
  have hlog : 10 ^ 30102 ≤ 2 ^ 100000 := by decide +kernel
  apply (Nat.pow_le_pow_iff_left (show 100000 ≠ 0 by omega)).mp
  calc (10 ^ m) ^ 100000
    _ = 10 ^ (m * 100000) := (pow_mul ..).symm
    _ ≤ 10 ^ (n * 30102) := Nat.pow_le_pow_right (by omega) h
    _ = (10 ^ 30102) ^ n := by rw [mul_comm, pow_mul]
    _ ≤ (2 ^ 100000) ^ n := Nat.pow_le_pow_left hlog n
    _ = (2 ^ n) ^ 100000 := by rw [← pow_mul, ← pow_mul, mul_comm]

theorem two_pow_le_ten_pow {m n : ℕ} (h : m * 30103 ≤ n * 100000) : 2 ^ m ≤ 10 ^ n := by
  have hlog : 2 ^ 100000 ≤ 10 ^ 30103 := by decide +kernel
  apply (Nat.pow_le_pow_iff_left (show 100000 ≠ 0 by omega)).mp
  calc (2 ^ m) ^ 100000
    _ = (2 ^ 100000) ^ m := by rw [← pow_mul, ← pow_mul, mul_comm]
    _ ≤ (10 ^ 30103) ^ m := Nat.pow_le_pow_left hlog m
    _ = 10 ^ (m * 30103) := by rw [← pow_mul, mul_comm]
    _ ≤ 10 ^ (n * 100000) := Nat.pow_le_pow_right (by omega) h
    _ = (10 ^ n) ^ 100000 := pow_mul ..

variable {n : ℕ}

theorem ten_pow_log2_le (hn : n ≠ 0) : 10 ^ (n.log2 * 30102 / 100000) ≤ n :=
  (ten_pow_le_two_pow (by omega)).trans (Nat.log2_self_le hn)

theorem lt_ten_pow_log2 : n < 10 ^ ((n.log2 + 1) * 30103 / 100000 + 1) :=
  Nat.lt_log2_self.trans_le (two_pow_le_ten_pow (by omega))

end Decimal

namespace Binary64

open Float.Model Float.Model.UnpackedFloat

section Scientific

variable {m : ℕ}

theorem value_eq_natCast {x : Float} {n : ℕ} (hf : x.isFinite) (hs : isNegative x = false)
    (h : (parts x).numerator = n * (parts x).denominator) : value x = n := by
  have hd : ((parts x).denominator : ℚ) ≠ 0 := by exact_mod_cast (parts x).denominator_pos.ne'
  rw [value_eq_magnitude (isNumber_of_isFinite hf), sign, hs, ← numerator_div_denominator, h]
  push_cast
  rw [mul_div_cancel_right₀ _ hd]
  exact one_mul _

-- The powers of ten that have binary64 numbers of their own.
theorem parts_powerOfTen : ∀ e : Fin Float.exactlyRepresentablePowersOfTen.size,
    Float.exactlyRepresentablePowersOfTen[e].isFinite ∧
      isNegative Float.exactlyRepresentablePowersOfTen[e] = false ∧
        (parts Float.exactlyRepresentablePowersOfTen[e]).numerator =
          10 ^ e.val * (parts Float.exactlyRepresentablePowersOfTen[e]).denominator := by
  decide +kernel

theorem rounds_ofScientific {e : ℤ} (hm : 0 < m) (hlo : -(2048 + m.log2) ≤ e) (hhi : e ≤ 2048) :
    Rounds (UnpackedFloat.ofScientific .binary64 m e) (m * 10 ^ e) := by
  have hhi : ¬e > 2 ^ Format.binary64.exponentBits := not_lt.mpr hhi
  have hlo : ¬e < -(2 ^ Format.binary64.exponentBits + m.log2) := not_lt.mpr hlo
  rw [UnpackedFloat.ofScientific, dif_neg hm.ne', if_neg hhi, if_neg hlo]
  split_ifs with he
  case pos =>
    obtain ⟨k, rfl⟩ := Int.eq_ofNat_of_zero_le he
    have hv : (0 : ℚ) < (m <<< 53 * 10 ^ k : ℕ) := by
      exact_mod_cast Nat.mul_pos (Nat.shiftLeft_pos_iff.mpr hm) (by positivity)
    have hq : (m * 10 ^ (k : ℤ) : ℚ) = (m <<< 53 * 10 ^ k : ℕ) * 2 ^ (-53 + 0 : ℤ) := by
      rw [Nat.shiftLeft_eq, zpow_natCast]
      push_cast
      ring
    have hgrid : -53 + 0 ≤ gridExponent (m * 10 ^ (k : ℤ)) := by
      have hone : (1 : ℚ) ≤ m * 10 ^ (k : ℤ) := by
        rw [zpow_natCast]
        exact_mod_cast Nat.mul_pos hm (by positivity)
      have := Int.log_mono_right (b := 2) one_pos hone
      rw [gridExponent, abs_of_pos (one_pos.trans_le hone)]
      simp only [Int.log_one_right] at this
      omega
    have := rounds_roundWithAccuracy (s := .positive) (a := .exact) rfl hv hq hgrid
    rwa [signum, one_mul] at this
  case neg =>
    have hpow : (10 : ℚ) ^ e = ((10 ^ (-e).toNat : ℕ) : ℚ)⁻¹ := by
      push_cast
      rw [← zpow_natCast, ← zpow_neg]
      congr 1
      omega
    have hnum : number (.finite .positive (10 ^ (-e).toNat) 0 (by positivity)) =
        (10 ^ (-e).toNat : ℕ) := by
      rw [number, signum, one_mul, zpow_zero, mul_one]
    have hq : (m * 10 ^ e : ℚ) =
        number (.finite .positive m 0 hm) /
          number (.finite .positive (10 ^ (-e).toNat) 0 (by positivity)) := by
      rw [hnum, number, signum, one_mul, zpow_zero, mul_one, hpow, div_eq_mul_inv]
    rw [hq]
    refine rounds_div rfl rfl ?_
    rw [hnum]
    positivity

-- A short numeral is read by one operation on exact operands.
theorem ofScientific_of_lt {e : ℕ} (hm : m < 2 ^ 53) (he : e ≤ 22) :
    ∃ p : Float, p.isFinite ∧ value p = 10 ^ e ∧ ∀ s : Bool,
      Float.ofScientific m s e = if s then m.toUInt64.toFloat / p else m.toUInt64.toFloat * p := by
  have ⟨hf, hs, hn⟩ := parts_powerOfTen ⟨e, Nat.lt_succ_of_le he⟩
  refine ⟨_, hf, by exact_mod_cast value_eq_natCast hf hs hn, fun s => ?_⟩
  rw [Float.ofScientific, dif_pos ⟨hm, he⟩]
  rfl

theorem ofScientific_of_not_lt {s : Bool} {e : ℕ} (h : ¬(m < 2 ^ 53 ∧ e ≤ 22)) :
    Float.ofScientific m s e =
      encoded (.ofScientific .binary64 m (if s then Int.negOfNat e else Int.ofNat e)) := by
  rw [Float.ofScientific, dif_neg h]
  rfl

theorem isNumber_and_value_ofScientific {e : ℤ} (hm : 0 < m) (hlo : -(2048 + m.log2) ≤ e)
    (hhi : e ≤ 2048) :
    IsNumber (Float.ofScientific m (e < 0) e.natAbs) ∧
      value (Float.ofScientific m (e < 0) e.natAbs) = rounded (m * 10 ^ e) := by
  by_cases h : m < 2 ^ 53 ∧ e.natAbs ≤ 22
  case pos =>
    have hn : m.toUInt64.toNat = m := UInt64.toNat_ofNat_of_lt' (by norm_num [UInt64.size]; omega)
    have ⟨hmf, hmv⟩ := isFinite_and_value_toFloat64 (n := m.toUInt64) (hn.symm ▸ h.left)
    obtain ⟨p, hpf, hpv, hp⟩ := ofScientific_of_lt h.left h.right
    rw [hp]
    split_ifs with he
    case pos =>
      have hz : value p ≠ 0 := by
        rw [hpv]
        positivity
      have hpow : (10 : ℚ) ^ e = (10 ^ e.natAbs)⁻¹ := by
        rw [← zpow_natCast, ← zpow_neg, Int.ofNat_natAbs_of_nonpos (decide_eq_true_iff.mp he).le,
          neg_neg]
      refine ⟨isNumber_div hmf hpf hz, ?_⟩
      rw [value_div hmf hpf hz, hmv, hpv, hn, hpow, div_eq_mul_inv]
    case neg =>
      refine ⟨isNumber_mul hmf hpf, ?_⟩
      rw [value_mul hmf hpf, hmv, hpv, hn, ← zpow_natCast, Int.natAbs_of_nonneg (by simpa using he)]
  case neg =>
    have hr := rounds_ofScientific hm hlo hhi
    have he : (if decide (e < 0) then Int.negOfNat e.natAbs else Int.ofNat e.natAbs) = e := by
      cases e <;> simp [Int.negOfNat]
    rw [ofScientific_of_not_lt h, he]
    exact ⟨hr.isNumber, hr.value_eq⟩

end Scientific

end Binary64

namespace Numeral

-- The rational number that the digits denote.
def denoted (n : Numeral) : ℚ :=
  (if n.negative then -1 else 1) * (n.mantissa * 10 ^ n.exponent)

theorem limit_le_ten_pow : limit ≤ 10 ^ (310 : ℤ) := by
  rw [limit]
  exact_mod_cast Decimal.two_pow_le_ten_pow (m := 1024) (n := 310) (by norm_num)

theorem ten_pow_lt : (10 : ℚ) ^ (-330 : ℤ) < 2 ^ (-1075 : ℤ) := by
  rw [zpow_neg, zpow_neg]
  apply inv_strictAnti₀ (by positivity)
  calc (2 ^ (1075 : ℤ) : ℚ)
    _ < 2 ^ (1076 : ℤ) := zpow_lt_zpow_right₀ one_lt_two (by norm_num)
    _ ≤ 10 ^ (330 : ℤ) := by
      exact_mod_cast Decimal.two_pow_le_ten_pow (m := 1076) (n := 330) (by norm_num)

variable {n : Numeral}

theorem toFloat_of_negative (h : n.negative) : n.toFloat = -{ n with negative := false }.toFloat := by
  simp only [toFloat, h, reduceIte, Bool.false_eq_true]

theorem isNumber_and_value_toFloat_of_nonneg (h : n.negative = false) :
    IsNumber n.toFloat ∧ value n.toFloat = rounded (n.mantissa * 10 ^ n.exponent) := by
  simp only [toFloat, h, Bool.false_eq_true, reduceIte]
  split_ifs with hz hhi hlo
  case pos =>
    refine ⟨isNumber_of_isFinite rfl, ?_⟩
    rw [hz, value_zero]
    simp
  case pos =>
    have hq : limit ≤ n.mantissa * 10 ^ n.exponent := by
      calc limit
        _ ≤ 10 ^ (310 : ℤ) := limit_le_ten_pow
        _ ≤ 10 ^ ((n.mantissa.log2 * 30102 / 100000 : ℕ) + n.exponent) :=
          zpow_le_zpow_right₀ (by norm_num) hhi
        _ = 10 ^ (n.mantissa.log2 * 30102 / 100000) * 10 ^ n.exponent := by
          rw [zpow_add₀ (by norm_num), zpow_natCast]
        _ ≤ n.mantissa * 10 ^ n.exponent := by
          gcongr
          exact_mod_cast Decimal.ten_pow_log2_le hz
    exact ⟨isNumber_infinity, value_infinity.trans (rounded_eq_limit hq).symm⟩
  case pos =>
    have hq : n.mantissa * 10 ^ n.exponent < (2 : ℚ) ^ (-1075 : ℤ) := by
      calc (n.mantissa * 10 ^ n.exponent : ℚ)
        _ ≤ 10 ^ ((n.mantissa.log2 + 1) * 30103 / 100000 + 1) * 10 ^ n.exponent := by
          gcongr
          exact_mod_cast Decimal.lt_ten_pow_log2.le
        _ = 10 ^ (((n.mantissa.log2 + 1) * 30103 / 100000 + 1 : ℕ) + n.exponent) := by
          rw [zpow_add₀ (by norm_num), zpow_natCast]
        _ ≤ 10 ^ (-330 : ℤ) := zpow_le_zpow_right₀ (by norm_num) hlo.le
        _ < 2 ^ (-1075 : ℤ) := ten_pow_lt
    refine ⟨isNumber_of_isFinite rfl, ?_⟩
    rw [rounded, onGrid_eq_zero (by positivity) hq, value_zero]
    simp [limit_pos.le]
  case neg =>
    exact isNumber_and_value_ofScientific (by omega) (by omega) (by omega)

theorem isNumber_toFloat (n : Numeral) : IsNumber n.toFloat := by
  cases h : n.negative
  case false => exact (isNumber_and_value_toFloat_of_nonneg h).left
  case true =>
    rw [toFloat_of_negative h, isNumber_neg]
    exact (isNumber_and_value_toFloat_of_nonneg rfl).left

-- The nearest number, whatever the size of the exponent.
theorem value_toFloat (n : Numeral) : value n.toFloat = rounded n.denoted := by
  cases h : n.negative
  case false =>
    rw [(isNumber_and_value_toFloat_of_nonneg h).right]
    simp [denoted, h]
  case true =>
    rw [toFloat_of_negative h, value_neg, (isNumber_and_value_toFloat_of_nonneg rfl).right]
    simp [denoted, h, rounded_neg]

end Numeral

end ContainerSizing
