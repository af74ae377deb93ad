import ContainerSizing.Proofs.Binary64.Value

namespace ContainerSizing.Binary64

open Float.Model Float.Model.UnpackedFloat

-- Where a number lies that has been cut off to the mantissa `m`.
def Locates : Accuracy → ℕ → ℚ → Prop
  | .exact,       m, v => v = m
  | .inexact .lt, m, v => m < v ∧ v < m + 1 / 2
  | .inexact .eq, m, v => v = m + 1 / 2
  | .inexact .gt, m, v => m + 1 / 2 < v ∧ v < m + 1

namespace Locates

variable {a : Accuracy} {m : ℕ} {v : ℚ}

theorem bounds (h : Locates a m v) : (m : ℚ) ≤ v ∧ v < m + 1 := by
  rcases a with _ | (_ | _ | _) <;> simp only [Locates] at h <;> constructor <;> linarith

theorem floor_eq (h : Locates a m v) : ⌊v⌋ = m := by
  have ⟨h₁, h₂⟩ := h.bounds
  exact Int.floor_eq_iff.mpr ⟨by exact_mod_cast h₁, by exact_mod_cast h₂⟩

theorem nearestEven_eq (h : Locates a m v) : nearestEven v = a.roundToNearestEven m := by
  have hf : Int.fract v = v - m := by simp [Int.fract, h.floor_eq]
  unfold nearestEven
  rw [hf, h.floor_eq]
  rcases a with _ | (_ | _ | _) <;> simp only [Locates, Accuracy.roundToNearestEven] at *
  case exact => simp [h]
  case inexact.lt => rw [if_pos (by linarith)]
  case inexact.eq =>
    rw [if_neg (by linarith), if_neg (by linarith)]
    push_cast
    rfl
  case inexact.gt =>
    rw [if_neg (by linarith), if_pos (by linarith)]
    push_cast
    rfl

end Locates

theorem locates_ofMantissaAndAccuracy {a : Accuracy} {m : ℕ} {v : ℚ} (h : Locates a m v) :
    Locates (ExtendedMantissa.ofMantissaAndAccuracy m a).accuracy
      (ExtendedMantissa.ofMantissaAndAccuracy m a).mantissa v := by
  rcases a with _ | (_ | _ | _) <;> exact h

-- One bit moves from the mantissa to the round bit, the round bit is remembered in the sticky bit.
theorem locates_shiftRightOne {em : ExtendedMantissa} {v : ℚ} (h : Locates em.accuracy em.mantissa v) :
    Locates em.shiftRightOne.accuracy em.shiftRightOne.mantissa (v / 2) := by
  obtain ⟨m, roundBit, stickyBit⟩ := em
  obtain ⟨n, rfl | rfl⟩ : ∃ n, m = 2 * n ∨ m = 2 * n + 1 := ⟨m / 2, by omega⟩
  case inl =>
    have he : ExtendedMantissa.shiftRightOne ⟨2 * n, roundBit, stickyBit⟩ =
        ⟨n, false, roundBit || stickyBit⟩ := by
      simp [ExtendedMantissa.shiftRightOne]
    rw [he]
    cases roundBit <;> cases stickyBit <;>
      simp only [Locates, ExtendedMantissa.accuracy, Bool.or_self, Bool.or_true, Bool.or_false] at * <;>
      push_cast at h <;> first | linarith | constructor <;> linarith
  case inr =>
    have he : ExtendedMantissa.shiftRightOne ⟨2 * n + 1, roundBit, stickyBit⟩ =
        ⟨n, true, roundBit || stickyBit⟩ := by
      simp [ExtendedMantissa.shiftRightOne]
      omega
    rw [he]
    cases roundBit <;> cases stickyBit <;>
      simp only [Locates, ExtendedMantissa.accuracy, Bool.or_self, Bool.or_true, Bool.or_false] at * <;>
      push_cast at h <;> first | linarith | constructor <;> linarith

theorem locates_shiftRight {em : ExtendedMantissa} {v : ℚ} (h : Locates em.accuracy em.mantissa v)
    (n : ℕ) : Locates (em >>> n).accuracy (em >>> n).mantissa (v / 2 ^ n) := by
  induction n
  case zero =>
    rw [pow_zero, div_one]
    exact h
  case succ n hi =>
    have := locates_shiftRightOne hi
    rw [pow_succ, ← div_div]
    exact this

section Shifting

variable {m : ℕ} {e : ℤ} {a : Accuracy} {v : ℚ}

theorem targetExponent_eq (m : ℕ) (e : ℤ) :
    Format.binary64.targetExponent (totalExponent m e) = max (m.log2 + e - 52) (-1074) := by
  simp only [Format.targetExponent, totalExponent, Format.mantissaBits, Format.minExponent]
  norm_num
  omega

theorem log_mul_two_zpow (hm : 0 < m) (h : Locates a m v) :
    Int.log 2 (v * 2 ^ e) = m.log2 + e := by
  have ⟨h₁, h₂⟩ := h.bounds
  have hlo : (2 : ℚ) ^ (m.log2 : ℤ) ≤ v := by
    apply le_trans _ h₁
    exact_mod_cast Nat.log2_self_le hm.ne'
  have hhi : v < 2 ^ (m.log2 + 1 : ℤ) := by
    apply h₂.trans_le
    exact_mod_cast Nat.lt_log2_self (n := m)
  have hv : (0 : ℚ) < v * 2 ^ e := by
    have : (0 : ℚ) < 2 ^ (m.log2 : ℤ) := by positivity
    have := this.trans_le hlo
    positivity
  have hle : m.log2 + e ≤ Int.log 2 (v * 2 ^ e) := by
    apply (Int.zpow_le_iff_le_log (R := ℚ) one_lt_two hv).mp
    push_cast
    rw [zpow_add₀ two_ne_zero]
    gcongr
  have hlt : Int.log 2 (v * 2 ^ e) < m.log2 + e + 1 := by
    apply (Int.lt_zpow_iff_log_lt (R := ℚ) one_lt_two hv).mp
    push_cast
    rw [add_right_comm, zpow_add₀ two_ne_zero]
    gcongr
  omega

-- Mantissas are shifted to the grid around the number, unless they are too short for it.
theorem targetExponent_eq_gridExponent (h : Locates a m v) (hv : 0 < v)
    (he : e ≤ gridExponent (v * 2 ^ e)) :
    Format.binary64.targetExponent (totalExponent m e) = gridExponent (v * 2 ^ e) := by
  have hq : (0 : ℚ) < v * 2 ^ e := by positivity
  rw [targetExponent_eq]
  cases Nat.eq_zero_or_pos m
  case inl hm =>
    subst hm
    have hlt : Int.log 2 (v * 2 ^ e) < e := by
      apply (Int.lt_zpow_iff_log_lt (R := ℚ) one_lt_two hq).mp
      have hv₁ : v < 1 := by simpa using h.bounds.2
      push_cast
      exact mul_lt_of_lt_one_left (by positivity) hv₁
    simp only [gridExponent, abs_of_pos hq] at *
    simp only [Nat.log2_zero]
    omega
  case inr hm => rw [gridExponent, abs_of_pos hq, log_mul_two_zpow hm h]

theorem shiftToTargetExponent_of_lt {n : ℕ} {g : ℤ} (hn : n < 2 ^ 53) (hg : -1074 ≤ g) :
    shiftToTargetExponent .binary64 n g .exact = (⟨n, false, false⟩, g) := by
  have hlog : n.log2 ≤ 52 := by
    rcases Nat.eq_zero_or_pos n with rfl | h
    · simp
    · have := (Nat.log2_lt h.ne').mpr hn
      omega
  have hs : (Format.binary64.targetExponent (totalExponent n g) - g).toNat = 0 := by
    rw [targetExponent_eq]
    omega
  rw [shiftToTargetExponent, shiftToExponent, hs]
  simp only [Nat.cast_zero, add_zero]
  rfl

-- A mantissa that has been rounded up to a power of two is one bit too long.
theorem shiftToTargetExponent_two_pow {g : ℤ} (hg : -1074 ≤ g) :
    shiftToTargetExponent .binary64 (2 ^ 53) g .exact = (⟨2 ^ 52, false, false⟩, g + 1) := by
  have hs : (Format.binary64.targetExponent (totalExponent (2 ^ 53) g) - g).toNat = 1 := by
    rw [targetExponent_eq, Nat.log2_two_pow]
    omega
  rw [shiftToTargetExponent, shiftToExponent, hs]
  rfl

end Shifting

section Rounding

variable {s : Sign} {m : ℕ} {e : ℤ} {a : Accuracy} {v q : ℚ}

theorem roundWithAccuracy_eq (h : Locates a m v) (hv : 0 < v) (hq : q = v * 2 ^ e)
    (he : e ≤ gridExponent q) :
    ∃ n : ℕ, (n : ℤ) = nearestEven (q / 2 ^ gridExponent q) ∧
      roundWithAccuracy .binary64 s m e a =
        let r := shiftToTargetExponent .binary64 n (gridExponent q) .exact
        if h : r.1.mantissa = 0 then .zero s
        else .finite s r.1.mantissa r.2 (Nat.pos_of_ne_zero h) := by
  have ht := targetExponent_eq_gridExponent h hv (hq ▸ he)
  rw [← hq] at ht
  let k := (gridExponent q - e).toNat
  have hk : e + k = gridExponent q := by omega
  let em := ExtendedMantissa.ofMantissaAndAccuracy m a >>> k
  have hem : Locates em.accuracy em.mantissa (v / 2 ^ k) :=
    locates_shiftRight (locates_ofMantissaAndAccuracy h) k
  have hvq : v / 2 ^ k = q / 2 ^ gridExponent q := by
    rw [← hk, zpow_add₀ two_ne_zero, zpow_natCast, hq]
    field_simp
  have hs : shiftToTargetExponent .binary64 m e a = (em, gridExponent q) := by
    simp only [shiftToTargetExponent, shiftToExponent, ht]
    exact Prod.ext rfl hk
  refine ⟨em.roundedMantissa, ?_, ?_⟩
  · rw [← hvq, hem.nearestEven_eq]
    rfl
  · rw [roundWithAccuracy, hs]

theorem nearestEven_grid_le (q : ℚ) (hq : 0 < q) :
    nearestEven (q / 2 ^ gridExponent q) ≤ 2 ^ 53 := by
  rw [← nearestEven_intCast (2 ^ 53)]
  apply nearestEven_monotone
  rw [div_le_iff₀ (by positivity)]
  have hlt := Int.lt_zpow_succ_log_self (R := ℚ) (b := 2) one_lt_two q
  have hle : (2 : ℚ) ^ (Int.log 2 q + 1) ≤ 2 ^ (53 + gridExponent q) := by
    apply zpow_le_zpow_right₀ one_le_two
    simp only [gridExponent, abs_of_pos hq]
    omega
  rw [zpow_add₀ two_ne_zero (53 : ℤ)] at hle
  push_cast at hlt ⊢
  linarith

theorem two_pow_le_nearestEven_grid (q : ℚ) (hq : 0 < q) (hg : gridExponent q ≠ -1074) :
    2 ^ 52 ≤ nearestEven (q / 2 ^ gridExponent q) := by
  rw [← nearestEven_intCast (2 ^ 52)]
  apply nearestEven_monotone
  rw [le_div_iff₀ (by positivity)]
  have hle := Int.zpow_log_le_self (R := ℚ) (b := 2) one_lt_two hq
  have heq : (2 : ℚ) ^ Int.log 2 q = 2 ^ (52 + gridExponent q) := by
    congr 1
    simp only [gridExponent, abs_of_pos hq] at *
    omega
  rw [zpow_add₀ two_ne_zero (52 : ℤ)] at heq
  push_cast at hle ⊢
  linarith

end Rounding

-- What an operation yields whose exact result would be `q`.
structure Rounds (u : UnpackedFloat) (q : ℚ) : Prop where
  canonical : IsCanonical u
  finite    : u.isFinite
  number_eq : number u = onGrid q

theorem onGrid_signum_mul (s : Sign) (q : ℚ) : onGrid (signum s * q) = signum s * onGrid q := by
  cases s <;> simp [signum, onGrid_neg]

theorem rounds_roundWithAccuracy {s : Sign} {m : ℕ} {e : ℤ} {a : Accuracy} {v q : ℚ}
    (h : Locates a m v) (hv : 0 < v) (hq : q = v * 2 ^ e) (he : e ≤ gridExponent q) :
    Rounds (roundWithAccuracy .binary64 s m e a) (signum s * q) := by
  have hpos : 0 < q := by rw [hq]; positivity
  have hg : -1074 ≤ gridExponent q := le_max_right _ _
  obtain ⟨n, hn, hr⟩ := roundWithAccuracy_eq (s := s) h hv hq he
  have hle := nearestEven_grid_le q hpos
  have hfull : 2 ^ 52 ≤ n ∨ gridExponent q = -1074 := by
    by_cases hg : gridExponent q = -1074
    · exact .inr hg
    · have := two_pow_le_nearestEven_grid q hpos hg
      exact .inl (by omega)
  have hgrid : onGrid (signum s * q) = signum s * (n * 2 ^ gridExponent q) := by
    rw [onGrid_signum_mul, onGrid, ← hn]
    norm_cast
  rw [hr]
  rcases (show n < 2 ^ 53 ∨ n = 2 ^ 53 by omega) with hlt | rfl
  case inl =>
    rw [shiftToTargetExponent_of_lt hlt hg]
    simp only
    split
    case isTrue hz =>
      rw [hz] at hgrid
      exact ⟨trivial, rfl, by simp [number, hgrid]⟩
    case isFalse hz => exact ⟨⟨hlt, hg, hfull⟩, rfl, by rw [number, hgrid]⟩
  case inr =>
    rw [shiftToTargetExponent_two_pow hg]
    refine ⟨⟨by norm_num, by simp only; omega, .inl le_rfl⟩, rfl, ?_⟩
    change signum s * ((2 ^ 52 : ℕ) * 2 ^ (gridExponent q + 1)) = _
    rw [hgrid, zpow_add_one₀ (two_ne_zero : (2 : ℚ) ≠ 0)]
    push_cast
    ring

end ContainerSizing.Binary64
