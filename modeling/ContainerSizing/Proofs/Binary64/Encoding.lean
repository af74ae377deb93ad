import ContainerSizing.Binary64.Basic
import Mathlib

namespace ContainerSizing.Binary64

open Float.Model Float.Model.UnpackedFloat

def decoded (x : Float) : UnpackedFloat :=
  x.toModel.unpack

def encoded (u : UnpackedFloat) : Float :=
  .ofModel (.pack u)

-- The form of every decoded number. A mantissa has 53 bits, and its leading bit can only be missing
-- at the least exponent. Hence numbers compare by their exponents first.
structure Canonical (mantissa : ℕ) (exponent : ℤ) : Prop where
  lt_two_pow : mantissa < 2 ^ 53
  least_le   : -1074 ≤ exponent
  full       : 2 ^ 52 ≤ mantissa ∨ exponent = -1074

def IsCanonical : UnpackedFloat → Prop
  | .finite _ m e _ => Canonical m e
  | _ => True

def sign (x : Float) : Sign :=
  if isNegative x then .negative else .positive

section Bits

variable (x : Float)

theorem toNat_mantissaBits :
    (@unpackMantissa .binary64 x.toModel.toBits.toBitVec).toNat =
      x.toBits.toNat % hiddenBit := by
  simp [unpackMantissa, Float.toBits, hiddenBit]

theorem toNat_exponentBits :
    (@unpackExponent .binary64 x.toModel.toBits.toBitVec).toNat =
      x.toBits.toNat / hiddenBit % 2048 := by
  simp [unpackExponent, Float.toBits, hiddenBit, Nat.shiftRight_eq_div_pow]

theorem sign_eq :
    Sign.ofBitVec (@unpackSign .binary64 x.toModel.toBits.toBitVec) = sign x := by
  have h : (@unpackSign .binary64 x.toModel.toBits.toBitVec).toNat =
      x.toBits.toNat / signBit % 2 := by
    simp [unpackSign, Float.toBits, signBit, Nat.shiftRight_eq_div_pow]
  have hlt := x.toBits.toNat_lt
  have hbit : @unpackSign .binary64 x.toModel.toBits.toBitVec = 0#1 ↔
      ¬signBit ≤ x.toBits.toNat := by
    rw [← BitVec.toNat_inj, h]
    simp only [signBit, Nat.reduceShiftLeft] at *
    simp
    omega
  simp [Sign.ofBitVec, sign, isNegative, hbit]
  split <;> split <;> first | rfl | omega

end Bits

-- The two forms of finite numbers.

theorem parts_of_subnormal {x : Float} (h : x.toBits.toNat / hiddenBit % 2048 = 0) :
    parts x = ⟨isNegative x, x.toBits.toNat % hiddenBit, -1074⟩ := by
  simp [parts, h]

theorem parts_of_normal {x : Float} (h : x.toBits.toNat / hiddenBit % 2048 ≠ 0) :
    parts x = ⟨isNegative x, x.toBits.toNat % hiddenBit + hiddenBit,
      (x.toBits.toNat / hiddenBit % 2048 : ℕ) - 1075⟩ := by
  simp [parts, h]

theorem toNat_leading_append {n : ℕ} (b : BitVec n) : (1#1 ++ b).toNat = b.toNat + 2 ^ n := by
  rw [BitVec.toNat_append, Nat.or_comm]
  simp [Nat.shiftLeft_eq, Nat.or_two_pow_eq_add_of_lt b.isLt]

theorem finite_congr {s : Sign} {m m' : ℕ} {e e' : ℤ} {h : 0 < m} {h' : 0 < m'}
    (hm : m = m') (he : e = e') : finite s m e h = finite s m' e' h' := by
  subst hm he; rfl

-- A finite number holds exactly its parts.
theorem decoded_eq_parts {x : Float} (hx : x.isFinite) :
    decoded x =
      if h : (parts x).mantissa = 0 then .zero (sign x)
      else .finite (sign x) (parts x).mantissa (parts x).exponent (Nat.pos_of_ne_zero h) := by
  have hm := toNat_mantissaBits x
  have he := toNat_exponentBits x
  have hx : (decoded x).isFinite := hx
  revert hx
  simp only [decoded, Float.Model.unpack, UnpackedFloat.unpack, sign_eq x]
  split
  · split <;> intro h <;> cases h
  case isFalse =>
    intro _
    split
    case isTrue h₀ =>
      have hb : x.toBits.toNat / hiddenBit % 2048 = 0 := by rw [← he, h₀]; rfl
      have hp := parts_of_subnormal hb
      split
      case isTrue h =>
        have : (parts x).mantissa = 0 := by rw [hp, ← hm, h]; rfl
        rw [dif_pos this]
      case isFalse h =>
        have : (parts x).mantissa ≠ 0 := by
          rw [hp, ← hm]
          exact fun h' => h (BitVec.eq_of_toNat_eq h')
        rw [dif_neg this]
        apply finite_congr
        · rw [hp, hm]
        · rw [hp, he, hb]; rfl
    case isFalse h₀ =>
      have hb : x.toBits.toNat / hiddenBit % 2048 ≠ 0 := by
        rw [← he]
        exact fun h' => h₀ (BitVec.eq_of_toNat_eq h')
      have hp := parts_of_normal hb
      have : (parts x).mantissa ≠ 0 := by
        rw [hp]
        simp [hiddenBit]
      rw [dif_neg this]
      apply finite_congr
      · rw [hp, toNat_leading_append, hm]; rfl
      · rw [hp, he]; rfl

theorem canonical_parts (x : Float) : Canonical (parts x).mantissa (parts x).exponent := by
  have := Nat.mod_lt x.toBits.toNat (show hiddenBit > 0 by decide)
  by_cases h : x.toBits.toNat / hiddenBit % 2048 = 0
  case pos =>
    rw [parts_of_subnormal h]
    simp only [hiddenBit, Nat.reduceShiftLeft] at *
    exact ⟨by omega, le_rfl, .inr rfl⟩
  case neg =>
    rw [parts_of_normal h]
    simp only [hiddenBit, Nat.reduceShiftLeft] at *
    exact ⟨by omega, by omega, .inl (by omega)⟩

theorem isFinite_iff {x : Float} : x.isFinite ↔ x.toBits.toNat / hiddenBit % 2048 ≠ 2047 := by
  rw [← toNat_exponentBits]
  have h : @unpackExponent .binary64 x.toModel.toBits.toBitVec = -1#11 ↔
      (@unpackExponent .binary64 x.toModel.toBits.toBitVec).toNat = 2047 := by
    rw [← BitVec.toNat_inj]; rfl
  change (decoded x).isFinite = true ↔ _
  simp only [decoded, Float.Model.unpack, UnpackedFloat.unpack]
  rw [ne_eq, ← h]
  split
  case isTrue h' =>
    have hne : ¬¬@unpackExponent .binary64 x.toModel.toBits.toBitVec = -1#11 := (· h')
    split <;> exact iff_of_false Bool.false_ne_true hne
  case isFalse h' =>
    split
    · split <;> exact iff_of_true rfl h'
    · exact iff_of_true rfl h'

-- The exponents above are those of infinity and of what is not a number.
theorem exponent_parts_le {x : Float} (hx : x.isFinite) : (parts x).exponent ≤ 971 := by
  have h := isFinite_iff.mp hx
  simp only [parts]
  split
  · simp
  · have := Nat.mod_lt (x.toBits.toNat / hiddenBit) (show 2048 > 0 by decide)
    simp only
    omega

theorem isCanonical_decoded (x : Float) : IsCanonical (decoded x) := by
  by_cases hx : x.isFinite
  case pos =>
    rw [decoded_eq_parts hx]
    split
    · trivial
    · exact canonical_parts x
  case neg =>
    have hx : ¬(decoded x).isFinite := hx
    cases h : decoded x <;> simp_all [IsCanonical, UnpackedFloat.isFinite]

section Encoded

variable {s : Sign}

theorem unpackSign_components {spec : Format} {e : BitVec spec.exponentBits}
    {m : BitVec spec.mantissaBitsWithoutImplicit} :
    unpackSign (packComponents spec s e m) = s.toBitVec := by
  ext i hi
  obtain rfl : i = 0 := by omega
  simp only [unpackSign, packComponents]
  grind

theorem ofBitVec_toBitVec : Sign.ofBitVec s.toBitVec = s := by
  cases s <;> rfl

theorem decoded_encoded (u : UnpackedFloat) :
    decoded (encoded u) = UnpackedFloat.unpack .binary64 (UnpackedFloat.pack .binary64 u) :=
  rfl

theorem decoded_encoded_notANumber : decoded (encoded .notANumber) = .notANumber :=
  rfl

theorem decoded_encoded_zero : decoded (encoded (.zero s)) = .zero s := by
  cases s <;> rfl

theorem decoded_encoded_infinity : decoded (encoded (.infinity s)) = .infinity s := by
  cases s <;> rfl

variable {m : ℕ} {e : ℤ} {hm : 0 < m}

theorem decoded_encoded_overflow (he : 971 < e) :
    decoded (encoded (.finite s m e hm)) = .infinity s := by
  have h : 2 ^ 11 ≤ (e + (1023 : ℕ) + (52 : ℕ)).toNat + 1 := by omega
  have hpack : UnpackedFloat.pack .binary64 (.finite s m e hm) =
      UnpackedFloat.pack .binary64 (.infinity s) := by
    simp only [UnpackedFloat.pack]
    exact if_pos h
  rw [decoded_encoded, hpack]
  exact decoded_encoded_infinity

-- With its leading bit, a mantissa is stored without it.
theorem decoded_encoded_normal (h : Canonical m e) (he : e ≤ 971) (hbit : 2 ^ 52 ≤ m) :
    decoded (encoded (.finite s m e hm)) = .finite s m e hm := by
  have ⟨hlt, hle, _⟩ := h
  have hfit : ¬2 ^ 11 ≤ (e + (1023 : ℕ) + (52 : ℕ)).toNat + 1 := by omega
  have hlog : m.log2 + 1 = 53 := by
    have := (Nat.le_log2 hm.ne').mpr hbit
    have := (Nat.log2_lt hm.ne').mpr hlt
    omega
  have hpack : UnpackedFloat.pack .binary64 (.finite s m e hm) =
      packComponents .binary64 s (BitVec.ofNat 11 (e + (1023 : ℕ) + (52 : ℕ)).toNat)
        (BitVec.ofNat 52 m) := by
    rw [UnpackedFloat.pack]
    exact (if_neg hfit).trans (if_pos hlog)
  have hexp : (BitVec.ofNat 11 (e + (1023 : ℕ) + (52 : ℕ)).toNat).toNat = (e + 1075).toNat := by
    rw [BitVec.toNat_ofNat]
    omega
  have hinf : BitVec.ofNat 11 (e + (1023 : ℕ) + (52 : ℕ)).toNat ≠ -1#11 := by
    intro h
    have h := hexp.symm.trans (congrArg BitVec.toNat h)
    have : (-1#11 : BitVec 11).toNat = 2047 := rfl
    omega
  have hzero : BitVec.ofNat 11 (e + (1023 : ℕ) + (52 : ℕ)).toNat ≠ 0#11 := by
    intro h
    have h := hexp.symm.trans (congrArg BitVec.toNat h)
    have : (0#11 : BitVec 11).toNat = 0 := rfl
    omega
  rw [decoded_encoded, hpack]
  simp only [UnpackedFloat.unpack, unpackMantissa_packComponents, unpackExponent_packComponents,
    unpackSign_components, ofBitVec_toBitVec]
  rw [if_neg hinf, if_neg hzero]
  apply finite_congr
  · rw [toNat_leading_append, BitVec.toNat_ofNat]
    omega
  · rw [hexp]
    simp [Format.exponentBias]
    omega

-- Without its leading bit, a mantissa is stored as it is, under an exponent of its own.
theorem decoded_encoded_subnormal (hbit : m < 2 ^ 52) :
    decoded (encoded (.finite s m (-1074) hm)) = .finite s m (-1074) hm := by
  have hfit : ¬2 ^ 11 ≤ ((-1074 : ℤ) + (1023 : ℕ) + (52 : ℕ)).toNat + 1 := by omega
  have hlog : m.log2 + 1 ≠ 53 := by
    have := (Nat.log2_lt hm.ne').mpr hbit
    omega
  have hpack : UnpackedFloat.pack .binary64 (.finite s m (-1074) hm) =
      packComponents .binary64 s 0#11 (BitVec.ofNat 52 m) := by
    rw [UnpackedFloat.pack]
    exact (if_neg hfit).trans (if_neg hlog)
  have hmant : (BitVec.ofNat 52 m).toNat = m := by
    rw [BitVec.toNat_ofNat]
    omega
  have hzero : BitVec.ofNat 52 m ≠ 0#52 := by
    intro h
    have h := hmant.symm.trans (congrArg BitVec.toNat h)
    exact hm.ne' h
  rw [decoded_encoded, hpack]
  simp only [UnpackedFloat.unpack, unpackMantissa_packComponents, unpackExponent_packComponents,
    unpackSign_components, ofBitVec_toBitVec]
  rw [if_neg (by decide), if_pos trivial, dif_neg hzero]
  exact finite_congr hmant rfl

theorem decoded_encoded_finite (h : Canonical m e) (he : e ≤ 971) :
    decoded (encoded (.finite s m e hm)) = .finite s m e hm := by
  by_cases hbit : 2 ^ 52 ≤ m
  case pos => exact decoded_encoded_normal h he hbit
  case neg =>
    obtain rfl := h.full.resolve_left hbit
    exact decoded_encoded_subnormal (not_le.mp hbit)

end Encoded

end ContainerSizing.Binary64
