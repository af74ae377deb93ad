import ContainerSizing.Proofs.Binary64.Ceiling

namespace ContainerSizing.Binary64

open Float.Model Float.Model.UnpackedFloat

variable {x y : Float} {m : ℕ} {e : ℤ}

theorem roundToInt_positive : roundToInt .positive m e = ⌊(m * 2 ^ e : ℚ)⌋ := by
  have hm : roundToInt .positive m e = (shiftToExponent (decreaseExponent m e 0).1
      (decreaseExponent m e 0).2 .exact 0).1.mantissa := rfl
  rw [hm, shiftToExponent]
  have hloc (n k : ℕ) := locates_shiftRight (locates_ofMantissaAndAccuracy (a := .exact) (m := n) rfl) k
  cases le_total e 0
  case inl he =>
    have hk : (m * 2 ^ e : ℚ) = m / 2 ^ (0 - e).toNat := by
      rw [div_eq_mul_inv, ← zpow_natCast, ← zpow_neg, Int.toNat_of_nonneg (by omega)]
      simp
    rw [decreaseExponent_of_le he, hk]
    exact (hloc m _).floor_eq.symm
  case inr he =>
    -- a whole number loses nothing
    have hq := decreaseExponent_fst_mul (m := m) he
    rw [zpow_zero, mul_one] at hq
    rw [decreaseExponent_snd he, ← hq]
    have := (hloc (decreaseExponent m e 0).1 0).floor_eq
    rw [pow_zero, div_one] at this
    exact this.symm

theorem toNat_ofNatClamp (n : ℕ) : (UInt32.ofNatClamp n).toNat = min n (UInt32.size - 1) := by
  rw [UInt32.ofNatClamp]
  split <;> rw [UInt32.toNat_ofNatLT] <;> omega

theorem size_le_limit : ((UInt32.size - 1 : ℕ) : ℚ) ≤ limit := by
  rw [limit]
  calc ((UInt32.size - 1 : ℕ) : ℚ)
    _ ≤ 2 ^ 32 := by norm_num [UInt32.size]
    _ ≤ 2 ^ 1024 := pow_le_pow_right₀ one_le_two (by norm_num)

namespace IsNonneg

theorem toNat_toUInt32 (hx : IsNonneg x) : x.toUInt32.toNat = min ⌊value x⌋₊ (UInt32.size - 1) := by
  have hd : x.toUInt32 = UInt32.ofNatClamp (UnpackedFloat.toInt 0 (UInt32.size - 1) (decoded x)).toNat :=
    rfl
  rw [hd, toNat_ofNatClamp]
  have hn := isNumber_iff.mp hx.isNumber
  have hv := hx.nonneg
  rw [value] at hv ⊢
  cases hu : decoded x <;> rw [hu] at hv hn
  case notANumber => exact absurd rfl hn
  case zero s => simp [UnpackedFloat.toInt, number]
  case infinity s =>
    cases s
    case negative =>
      simp only [number, signum] at hv
      linarith [limit_pos]
    case positive =>
      have hle : UInt32.size - 1 ≤ ⌊number (.infinity .positive)⌋₊ := by
        rw [number, signum, one_mul]
        exact Nat.le_floor size_le_limit
      rw [min_eq_right hle]
      rfl
  case finite s m e hm =>
    have hp : (0 : ℚ) < m * 2 ^ e := by positivity
    cases s
    case negative =>
      simp only [number, signum] at hv
      linarith
    case positive =>
      rw [UnpackedFloat.toInt, roundToInt_positive, number, signum, one_mul, Int.floor_toNat]

-- Rounding up keeps to infinity, which stands at a whole number.

theorem ceil (hx : IsNonneg x) : IsNonneg (Binary64.ceil x) := by
  by_cases hf : x.isFinite
  case pos =>
    refine ⟨isNumber_ceil hf, ?_⟩
    rw [value_ceil hf]
    exact_mod_cast Int.ceil_nonneg hx.nonneg
  case neg => rwa [Binary64.ceil, if_neg hf]

theorem value_ceil (hx : IsNonneg x) : value (Binary64.ceil x) = ⌈value x⌉ := by
  by_cases hf : x.isFinite
  case pos => exact Binary64.value_ceil hf
  case neg =>
    have hl : limit = (2 ^ 1024 : ℤ) := (Int.cast_pow 2 1024).symm
    rw [Binary64.ceil, if_neg hf, value_eq_limit (hx.finite_or_infinity.resolve_left hf), hl,
      Int.ceil_intCast]

theorem toNat_toUInt32_ceil (hx : IsNonneg x) :
    (Binary64.ceil x).toUInt32.toNat = min ⌈value x⌉₊ (UInt32.size - 1) := by
  rw [hx.ceil.toNat_toUInt32, hx.value_ceil, ← Int.floor_toNat, Int.floor_intCast, Int.ceil_toNat]

end IsNonneg

end ContainerSizing.Binary64
