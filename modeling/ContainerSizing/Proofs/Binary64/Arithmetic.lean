import ContainerSizing.Proofs.Binary64.Accuracy

namespace ContainerSizing.Binary64

open Float.Model Float.Model.UnpackedFloat

namespace Rounds

variable {u : UnpackedFloat} {q : ℚ}

theorem value_eq (h : Rounds u q) : value (encoded u) = rounded q := by
  rw [value_encoded h.canonical, h.number_eq, rounded]

theorem isNumber (h : Rounds u q) : IsNumber (encoded u) := by
  apply isNumber_encoded h.canonical
  intro hu
  have := h.finite
  rw [hu] at this
  cases this

-- Numbers of the format are their own rounding.
theorem self (h : IsCanonical u) (hf : u.isFinite) : Rounds u (number u) where
  canonical := h
  finite    := hf
  number_eq := by
    cases u
    case infinity | notANumber => cases hf
    case zero s => simp [number]
    case finite s m e hm =>
      rw [number, onGrid_signum_mul]
      have := onGrid_eq_self_of_lt (q := m * 2 ^ e) (n := m) (by simp)
        (by rw [Nat.abs_cast]; exact_mod_cast h.lt_two_pow) h.least_le
      rw [this]

end Rounds

section Normalizing

variable {m : ℕ} {e t : ℤ}

theorem decreaseExponent_fst_mul (h : t ≤ e) :
    ((decreaseExponent m e t).1 * 2 ^ t : ℚ) = m * 2 ^ e := by
  have he : e = t + (e - t).toNat := by omega
  simp only [decreaseExponent, Nat.shiftLeft_eq]
  conv_rhs => rw [he, zpow_add₀ two_ne_zero, zpow_natCast]
  push_cast
  ring

theorem decreaseExponent_of_le (h : e ≤ t) : decreaseExponent m e t = (m, e) := by
  have : (e - t).toNat = 0 := by omega
  simp [decreaseExponent, this]

theorem decreaseExponent_snd (h : t ≤ e) : (decreaseExponent m e t).2 = t := by
  simp only [decreaseExponent]
  omega

theorem rounds_round {s : Sign} (hm : 0 < m) :
    Rounds (UnpackedFloat.round .binary64 s m e) (signum s * (m * 2 ^ e)) := by
  have hlog : Format.binary64.targetExponent (totalExponent m e) = gridExponent (m * 2 ^ e) := by
    rw [targetExponent_eq, gridExponent, abs_of_pos (by positivity),
      log_mul_two_zpow hm (v := m) (a := .exact) rfl]
  simp only [UnpackedFloat.round, hlog]
  cases le_total e (gridExponent (m * 2 ^ e))
  case inl h =>
    rw [decreaseExponent_of_le h]
    exact rounds_roundWithAccuracy (v := m) rfl (by exact_mod_cast hm) rfl h
  case inr h =>
    -- a mantissa that is too short gets zeros at its end, and nothing is lost
    have hq := decreaseExponent_fst_mul (m := m) h
    have hpos : (0 : ℚ) < (decreaseExponent m e (gridExponent (m * 2 ^ e))).1 := by
      have : (0 : ℚ) < m * 2 ^ e := by positivity
      rw [← hq] at this
      exact pos_of_mul_pos_left this (by positivity)
    have hs := decreaseExponent_snd (m := m) h
    exact rounds_roundWithAccuracy rfl hpos (by rw [hs, hq]) (by rw [hs])

theorem rounds_normalize {n : ℤ} {s : Sign} :
    Rounds (normalize .binary64 n e s) (n * 2 ^ e) := by
  simp only [UnpackedFloat.normalize]
  rcases lt_trichotomy n 0 with h | rfl | h
  · have hn : ((-n).toNat : ℚ) = -n := by
      have : ((-n).toNat : ℤ) = -n := by omega
      exact_mod_cast this
    have := rounds_round (e := e) (s := .negative) (m := (-n).toNat) (by omega)
    rw [hn] at this
    rw [compare_lt_iff_lt.mpr h]
    simpa [signum] using this
  · exact ⟨trivial, rfl, by simp [number]⟩
  · have hn : (n.toNat : ℚ) = n := by
      have : (n.toNat : ℤ) = n := by omega
      exact_mod_cast this
    have := rounds_round (e := e) (s := .positive) (m := n.toNat) (by omega)
    rw [hn] at this
    rw [compare_gt_iff_gt.mpr h]
    simpa [signum] using this

end Normalizing

section Operations

variable {u w : UnpackedFloat}

theorem apply_eq (s : Sign) (n : ℕ) : (s.apply n : ℚ) = signum s * n := by
  cases s <;> simp [Sign.apply, signum]

theorem signum_neg (s : Sign) : signum (-s) = -signum s := by
  cases s
  · exact (neg_neg 1).symm
  · rfl

theorem signum_mul (s s' : Sign) : signum (s * s') = signum s * signum s' := by
  cases s <;> cases s' <;> simp only [signum] <;> norm_num

theorem number_neg : number u.neg = -number u := by
  cases u <;> simp [UnpackedFloat.neg, number, signum_neg]

theorem rounds_add (hu : IsCanonical u) (hw : IsCanonical w) (hu' : u.isFinite) (hw' : w.isFinite) :
    Rounds (UnpackedFloat.add .binary64 u w) (number u + number w) := by
  cases u
  case infinity | notANumber => cases hu'
  case zero s =>
    cases w
    case infinity | notANumber => cases hw'
    case zero s' =>
      simp only [UnpackedFloat.add]
      split <;> exact ⟨trivial, rfl, by simp [number]⟩
    case finite s' m' e' hm' => simpa [UnpackedFloat.add, number] using Rounds.self hw hw'
  case finite s m e hm =>
    cases w
    case infinity | notANumber => cases hw'
    case zero s' => simpa [UnpackedFloat.add, number] using Rounds.self hu hu'
    case finite s' m' e' hm' =>
      have hsum : number (.finite s m e hm) + number (.finite s' m' e' hm') =
          ((s.apply (decreaseExponent m e (min e e')).1 +
            s'.apply (decreaseExponent m' e' (min e e')).1 : ℤ) : ℚ) * 2 ^ min e e' := by
        push_cast
        rw [apply_eq, apply_eq, add_mul, mul_assoc, mul_assoc,
          decreaseExponent_fst_mul (min_le_left e e'), decreaseExponent_fst_mul (min_le_right e e')]
        rfl
      rw [hsum]
      exact rounds_normalize

theorem apply_neg (s : Sign) (n : ℤ) : (-s).apply n = -s.apply n := by
  cases s
  · exact (neg_neg n).symm
  · rfl

theorem sub_eq_add (u w : UnpackedFloat) :
    u.sub .binary64 w = u.add .binary64 w.neg := by
  cases u <;> cases w <;> try rfl
  case finite.finite s m e _ s' m' e' _ =>
    simp only [UnpackedFloat.sub, UnpackedFloat.add, UnpackedFloat.neg, apply_neg, Int.sub_eq_add_neg]

theorem rounds_sub (hu : IsCanonical u) (hw : IsCanonical w) (hu' : u.isFinite) (hw' : w.isFinite) :
    Rounds (UnpackedFloat.sub .binary64 u w) (number u - number w) := by
  have hc : IsCanonical w.neg := by cases w <;> exact hw
  have hf : w.neg.isFinite := by cases w <;> exact hw'
  have := rounds_add hu hc hu' hf
  rwa [number_neg, ← sub_eq_add, ← sub_eq_add_neg] at this

-- A product of mantissas is too long for the format, unless both factors are tiny.
theorem add_le_gridExponent {m m' : ℕ} {e e' : ℤ} (h : Canonical m e) (h' : Canonical m' e')
    (hm : 0 < m) (hm' : 0 < m') :
    e + e' ≤ gridExponent ((m * m' : ℕ) * 2 ^ (e + e')) := by
  have hpos : 0 < m * m' := Nat.mul_pos hm hm'
  rw [gridExponent, abs_of_pos (by positivity), log_mul_two_zpow hpos (v := (m * m' : ℕ)) (a := .exact) rfl]
  have hlog (hfull : 2 ^ 52 ≤ m * m') : 52 ≤ (m * m').log2 := (Nat.le_log2 hpos.ne').mpr hfull
  cases h.full
  case inl hfull =>
    have := hlog (hfull.trans (Nat.le_mul_of_pos_right m hm'))
    omega
  case inr he =>
    cases h'.full
    case inl hfull =>
      have := hlog (hfull.trans (Nat.le_mul_of_pos_left m' hm))
      omega
    case inr he' => omega

theorem rounds_mul (hu : IsCanonical u) (hw : IsCanonical w) (hu' : u.isFinite) (hw' : w.isFinite) :
    Rounds (UnpackedFloat.mul .binary64 u w) (number u * number w) := by
  cases u
  case infinity | notANumber => cases hu'
  case zero s =>
    cases w
    case infinity | notANumber => cases hw'
    all_goals exact ⟨trivial, rfl, by simp [number, UnpackedFloat.mul]⟩
  case finite s m e hm =>
    cases w
    case infinity | notANumber => cases hw'
    case zero s' => exact ⟨trivial, rfl, by simp [number, UnpackedFloat.mul]⟩
    case finite s' m' e' hm' =>
      have hprod : number (.finite s m e hm) * number (.finite s' m' e' hm') =
          signum (s * s') * ((m * m' : ℕ) * 2 ^ (e + e')) := by
        rw [signum_mul, number, number, zpow_add₀ two_ne_zero]
        push_cast
        ring
      have hpos : (0 : ℚ) < (m * m' : ℕ) := by exact_mod_cast Nat.mul_pos hm hm'
      rw [hprod]
      exact rounds_roundWithAccuracy (v := (m * m' : ℕ)) rfl hpos rfl
        (add_le_gridExponent hu hw hm hm')

theorem mul_swap (u w : UnpackedFloat) : u.mul .binary64 w = w.mul .binary64 u := by
  have sign_comm (s s' : Sign) : s * s' = s' * s := by cases s <;> cases s' <;> rfl
  cases u <;> cases w
  case finite.finite s m e _ s' m' e' _ =>
    simp only [UnpackedFloat.mul]
    rw [sign_comm, Nat.mul_comm, Int.add_comm]
  all_goals simp only [UnpackedFloat.mul]
  all_goals exact congrArg _ (sign_comm _ _)

end Operations

section Quotients

variable {m n : ℕ} {e f : ℤ}

-- What a division of natural numbers leaves over tells where the quotient lies.
theorem locates_accuracyOfFraction (hn : 0 < n) :
    Locates (accuracyOfFraction (m % n) n) (m / n) (m / n : ℚ) := by
  have hdiv : (m / n : ℚ) = (m / n : ℕ) + (m % n : ℕ) / n := by
    have : (m : ℚ) = n * (m / n : ℕ) + (m % n : ℕ) := by exact_mod_cast (Nat.div_add_mod m n).symm
    field_simp
    linarith
  have hpos : (0 : ℚ) < n := by exact_mod_cast hn
  have hlt : ((m % n : ℕ) : ℚ) < n := by exact_mod_cast Nat.mod_lt m hn
  rw [accuracyOfFraction, hdiv]
  split
  case isTrue hz => simp [Locates, hz]
  case isFalse hz =>
    have hz : (0 : ℚ) < (m % n : ℕ) := by exact_mod_cast Nat.pos_of_ne_zero hz
    rcases lt_trichotomy (2 * (m % n)) n with h | h | h
    case inl =>
      have hq : (2 * (m % n : ℕ) : ℚ) < n := by exact_mod_cast h
      rw [compare_lt_iff_lt.mpr h]
      refine ⟨lt_add_of_pos_right _ (by positivity), (add_lt_add_iff_left _).mpr ?_⟩
      rw [div_lt_iff₀ hpos]
      linarith
    case inr.inl =>
      have hq : (2 * (m % n : ℕ) : ℚ) = n := by exact_mod_cast h
      rw [compare_eq_iff_eq.mpr h]
      refine congrArg (_ + ·) ?_
      rw [div_eq_iff hpos.ne']
      linarith
    case inr.inr =>
      have hq : (n : ℚ) < 2 * (m % n : ℕ) := by exact_mod_cast h
      rw [compare_gt_iff_gt.mpr h]
      refine ⟨(add_lt_add_iff_left _).mpr ?_, (add_lt_add_iff_left _).mpr ?_⟩
      · rw [lt_div_iff₀ hpos]
        linarith
      · rwa [div_lt_one hpos]

-- The dividend gets as many zeros as the quotient needs to fill the mantissa.
theorem divCore_le_gridExponent (hm : 0 < m) (hn : 0 < n) :
    Format.binary64.targetExponent (totalExponent m e - totalExponent n f) ≤
      gridExponent (m / n * 2 ^ (e - f)) := by
  have hq : (0 : ℚ) < m / n * 2 ^ (e - f) := by positivity
  have hlog : m.log2 - n.log2 - 1 + (e - f) ≤ Int.log 2 (m / n * 2 ^ (e - f) : ℚ) := by
    apply (Int.zpow_le_iff_le_log (R := ℚ) one_lt_two hq).mp
    have hlo : (2 : ℚ) ^ (m.log2 : ℤ) ≤ m := by exact_mod_cast Nat.log2_self_le hm.ne'
    have hhi : (n : ℚ) ≤ 2 ^ (n.log2 + 1 : ℤ) := by exact_mod_cast (Nat.lt_log2_self (n := n)).le
    calc ((2 : ℕ) : ℚ) ^ (m.log2 - n.log2 - 1 + (e - f) : ℤ)
      _ = 2 ^ (m.log2 : ℤ) / 2 ^ (n.log2 + 1 : ℤ) * 2 ^ (e - f) := by
        rw [← zpow_sub₀ two_ne_zero, ← zpow_add₀ two_ne_zero]
        push_cast
        congr 1
        ring
      _ ≤ m / n * 2 ^ (e - f) := by gcongr
  rw [gridExponent, abs_of_pos hq]
  simp only [Format.targetExponent, totalExponent, Format.mantissaBits, Format.minExponent]
  norm_num
  omega

theorem signum_div (s s' : Sign) : signum (s / s') = signum s / signum s' := by
  have : s / s' = s * s' := by cases s <;> cases s' <;> rfl
  rw [this, signum_mul]
  cases s'
  · rw [show signum .negative = -1 from rfl, mul_neg_one, div_neg, div_one]
  · exact (mul_one _).trans (div_one _).symm

theorem rounds_div {u w : UnpackedFloat} (hu' : u.isFinite) (hw' : w.isFinite) (hz : number w ≠ 0) :
    Rounds (UnpackedFloat.div .binary64 u w) (number u / number w) := by
  cases w
  case infinity | notANumber => cases hw'
  case zero s => exact absurd rfl hz
  case finite s' n f hn =>
    cases u
    case infinity | notANumber => cases hu'
    case zero s => exact ⟨trivial, rfl, by simp [number, UnpackedFloat.div]⟩
    case finite s m e hm =>
      let t := min (e - f)
        (Format.binary64.targetExponent (totalExponent m e - totalExponent n f))
      let k := (e - f - t).toNat
      have hk : e - f = k + t := by omega
      have hquot : number (.finite s m e hm) / number (.finite s' n f hn) =
          signum (s / s') * (((m <<< k : ℕ) / n : ℚ) * 2 ^ t) := by
        have hpow : (2 : ℚ) ^ e / 2 ^ f = 2 ^ k * 2 ^ t := by
          rw [← zpow_sub₀ two_ne_zero, hk, zpow_add₀ two_ne_zero, zpow_natCast]
        rw [signum_div, number, number, Nat.shiftLeft_eq]
        push_cast
        rw [mul_div_mul_comm, mul_div_mul_comm, hpow]
        ring
      have hgrid : t ≤ gridExponent ((m <<< k : ℕ) / n * 2 ^ t) := by
        have hq : ((m <<< k : ℕ) / n * 2 ^ t : ℚ) = m / n * 2 ^ (e - f) := by
          rw [hk, zpow_add₀ two_ne_zero, zpow_natCast, Nat.shiftLeft_eq]
          push_cast
          ring
        rw [hq]
        exact (min_le_right _ _).trans (divCore_le_gridExponent hm hn)
      have hpos : (0 : ℚ) < (m <<< k : ℕ) / n := by
        have : 0 < m <<< k := Nat.shiftLeft_pos_iff.mpr hm
        positivity
      rw [hquot]
      exact rounds_roundWithAccuracy (locates_accuracyOfFraction hn) hpos rfl hgrid

end Quotients

section Numbers

variable {x y : Float}

theorem value_add (hx : x.isFinite) (hy : y.isFinite) :
    value (x + y) = rounded (value x + value y) :=
  (rounds_add (isCanonical_decoded x) (isCanonical_decoded y) hx hy).value_eq

theorem isNumber_add (hx : x.isFinite) (hy : y.isFinite) : IsNumber (x + y) :=
  (rounds_add (isCanonical_decoded x) (isCanonical_decoded y) hx hy).isNumber

theorem value_sub (hx : x.isFinite) (hy : y.isFinite) :
    value (x - y) = rounded (value x - value y) :=
  (rounds_sub (isCanonical_decoded x) (isCanonical_decoded y) hx hy).value_eq

theorem isNumber_sub (hx : x.isFinite) (hy : y.isFinite) : IsNumber (x - y) :=
  (rounds_sub (isCanonical_decoded x) (isCanonical_decoded y) hx hy).isNumber

theorem value_mul (hx : x.isFinite) (hy : y.isFinite) :
    value (x * y) = rounded (value x * value y) :=
  (rounds_mul (isCanonical_decoded x) (isCanonical_decoded y) hx hy).value_eq

theorem isNumber_mul (hx : x.isFinite) (hy : y.isFinite) : IsNumber (x * y) :=
  (rounds_mul (isCanonical_decoded x) (isCanonical_decoded y) hx hy).isNumber

protected theorem mul_comm (x y : Float) : x * y = y * x :=
  congrArg encoded (mul_swap (decoded x) (decoded y))

theorem value_div (hx : x.isFinite) (hy : y.isFinite) (hz : value y ≠ 0) :
    value (x / y) = rounded (value x / value y) :=
  (rounds_div hx hy hz).value_eq

theorem isNumber_div (hx : x.isFinite) (hy : y.isFinite) (hz : value y ≠ 0) : IsNumber (x / y) :=
  (rounds_div (u := decoded x) (w := decoded y) hx hy hz).isNumber

end Numbers

section Counts

-- A count of 32 bits has a float of its own.

variable (n : UInt32)

theorem rounds_toFloat : Rounds (UnpackedFloat.ofUInt32 .binary64 n) n.toNat := by
  have h := rounds_normalize (n := n.toNat) (e := 0) (s := .positive)
  rwa [zpow_zero, mul_one, Int.cast_natCast] at h

theorem isNumber_toFloat : IsNumber n.toFloat :=
  (rounds_toFloat n).isNumber

theorem value_toFloat : value n.toFloat = n.toNat := by
  have := n.toNat_lt
  exact (rounds_toFloat n).value_eq.trans <| rounded_eq_self <| representable_natCast (by omega)

theorem isFinite_of_value_eq {x : Float} {n : ℕ} (hx : IsNumber x) (h : value x = n)
    (hn : n ≤ 2 ^ 53) : x.isFinite := by
  rw [isFinite_iff_abs_value_lt hx, h, Nat.abs_cast, limit]
  calc (n : ℚ)
    _ ≤ 2 ^ 53 := by exact_mod_cast hn
    _ < 2 ^ 1024 := pow_lt_pow_right₀ one_lt_two (by norm_num)

theorem isFinite_toFloat : n.toFloat.isFinite := by
  have := n.toNat_lt
  exact isFinite_of_value_eq (isNumber_toFloat n) (value_toFloat n) (by omega)

end Counts

end ContainerSizing.Binary64
