import ContainerSizing.Proofs.Binary64.Encoding
import ContainerSizing.Proofs.Binary64.Rounding

namespace ContainerSizing.Binary64

open Float.Model Float.Model.UnpackedFloat

def signum : Sign → ℚ
  | .negative => -1
  | .positive => 1

def number : UnpackedFloat → ℚ
  | .infinity s => signum s * limit
  | .notANumber => 0
  | .zero _ => 0
  | .finite s m e _ => signum s * (m * 2 ^ e)

def value (x : Float) : ℚ :=
  number (decoded x)

def IsNumber (x : Float) : Prop :=
  x.isNaN = false

theorem isNumber_iff {x : Float} : IsNumber x ↔ decoded x ≠ .notANumber := by
  change (decoded x).isNaN = false ↔ _
  cases decoded x <;> simp [UnpackedFloat.isNaN]

theorem isNumber_of_isFinite {x : Float} (h : x.isFinite) : IsNumber x := by
  have h : (decoded x).isFinite = true := h
  rw [isNumber_iff]
  intro h'
  rw [h'] at h
  cases h

theorem abs_signum_mul (s : Sign) (q : ℚ) : |signum s * q| = |q| := by
  cases s <;> simp [signum]

namespace Canonical

variable {m : ℕ} {e : ℤ}

theorem mul_two_zpow_lt (h : Canonical m e) : (m * 2 ^ e : ℚ) < 2 ^ (e + 53) := by
  rw [zpow_add₀ two_ne_zero, mul_comm]
  have : (m : ℚ) < 2 ^ 53 := by exact_mod_cast h.lt_two_pow
  gcongr
  exact_mod_cast this

theorem mul_lt_limit (h : Canonical m e) (he : e ≤ 971) : (m * 2 ^ e : ℚ) < limit := by
  apply h.mul_two_zpow_lt.trans_le
  rw [limit, ← zpow_natCast]
  exact zpow_le_zpow_right₀ one_le_two (by omega)

theorem limit_le_mul (h : Canonical m e) (he : 971 < e) : limit ≤ (m * 2 ^ e : ℚ) := by
  have hm : (2 : ℚ) ^ (52 : ℤ) ≤ m := by exact_mod_cast h.full.resolve_right (by omega)
  calc limit
    _ = 2 ^ (1024 : ℤ) := rfl
    _ ≤ 2 ^ (52 + e) := zpow_le_zpow_right₀ one_le_two (by omega)
    _ = 2 ^ (52 : ℤ) * 2 ^ e := zpow_add₀ two_ne_zero _ _
    _ ≤ m * 2 ^ e := by gcongr

-- The leading bit puts every number above those with smaller exponents.
theorem mul_lt_mul_of_lt {m' : ℕ} {e' : ℤ} (h : Canonical m e) (h' : Canonical m' e') (he : e < e') :
    (m * 2 ^ e : ℚ) < m' * 2 ^ e' := by
  have hm : (2 : ℚ) ^ (52 : ℤ) ≤ m' := by
    have := h.least_le
    exact_mod_cast h'.full.resolve_right (by omega)
  calc (m * 2 ^ e : ℚ)
    _ < 2 ^ (e + 53) := h.mul_two_zpow_lt
    _ ≤ 2 ^ (52 + e') := zpow_le_zpow_right₀ one_le_two (by omega)
    _ = 2 ^ (52 : ℤ) * 2 ^ e' := zpow_add₀ two_ne_zero _ _
    _ ≤ m' * 2 ^ e' := by gcongr

theorem compare_eq {m' : ℕ} {e' : ℤ} (h : Canonical m e) (h' : Canonical m' e') :
    (compare e e').then (compare m m') = compare (m * 2 ^ e : ℚ) (m' * 2 ^ e') := by
  rcases lt_trichotomy e e' with hlt | rfl | hgt
  · rw [compare_lt_iff_lt.mpr hlt, compare_lt_iff_lt.mpr (h.mul_lt_mul_of_lt h' hlt)]
    rfl
  case inr.inl =>
    have hp : (0 : ℚ) < 2 ^ e := by positivity
    rw [compare_eq_iff_eq.mpr rfl]
    rcases lt_trichotomy m m' with hm | rfl | hm
    · rw [compare_lt_iff_lt.mpr hm, compare_lt_iff_lt.mpr (by gcongr)]
      rfl
    · simp
    · rw [compare_gt_iff_gt.mpr hm, compare_gt_iff_gt.mpr (by gcongr)]
      rfl
  · rw [compare_gt_iff_gt.mpr hgt, compare_gt_iff_gt.mpr (h'.mul_lt_mul_of_lt h hgt)]
    rfl

theorem representable (s : Sign) (h : Canonical m e) (he : e ≤ 971) :
    Representable (signum s * (m * 2 ^ e)) where
  multiple := by
    have := h.lt_two_pow
    cases s
    · exact ⟨-m, e, by simp [signum], by rw [abs_neg]; norm_cast; omega, h.least_le⟩
    · exact ⟨m, e, by simp [signum], by norm_cast; omega, h.least_le⟩
  bounded := by
    rw [abs_signum_mul, abs_of_nonneg (by positivity)]
    exact (h.mul_lt_limit he).le

end Canonical

section Decoded

variable {x : Float} {s : Sign} {m : ℕ} {e : ℤ} {hm : 0 < m}

theorem canonical_of_decoded (h : decoded x = .finite s m e hm) : Canonical m e := by
  have := isCanonical_decoded x
  rw [h] at this
  exact this

theorem exponent_le_of_decoded (h : decoded x = .finite s m e hm) : e ≤ 971 := by
  have hx : x.isFinite = true := by
    change (decoded x).isFinite = true
    rw [h]
    rfl
  have he := exponent_parts_le hx
  rw [decoded_eq_parts hx] at h
  split at h
  · cases h
  · injection h with _ _ h
    exact h ▸ he

end Decoded

theorem representable_value (x : Float) : Representable (value x) := by
  have := limit_pos
  rw [value]
  cases h : decoded x
  case finite s m e hm =>
    exact (canonical_of_decoded h).representable s (exponent_le_of_decoded h)
  case infinity s =>
    refine ⟨?_, by rw [number, abs_signum_mul, abs_of_pos this]⟩
    cases s
    · exact ⟨-1, 1024, by simp [number, signum, limit], by norm_num, by norm_num⟩
    · exact ⟨1, 1024, by simp [number, signum, limit], by norm_num, by norm_num⟩
  all_goals exact ⟨⟨0, 0, by simp [number], by norm_num, by norm_num⟩, by simp [number, this.le]⟩

theorem abs_number_lt_limit {x : Float} {s : Sign} {m : ℕ} {e : ℤ} {hm : 0 < m}
    (h : decoded x = .finite s m e hm) : |number (.finite s m e hm)| < limit := by
  rw [number, abs_signum_mul, abs_of_nonneg (by positivity)]
  exact (canonical_of_decoded h).mul_lt_limit (exponent_le_of_decoded h)

theorem isFinite_iff_abs_value_lt {x : Float} (hx : IsNumber x) : x.isFinite ↔ |value x| < limit := by
  have := limit_pos
  change (decoded x).isFinite = true ↔ _
  rw [value]
  cases h : decoded x
  case notANumber => exact absurd h (isNumber_iff.mp hx)
  case infinity s =>
    rw [number, abs_signum_mul, abs_of_pos this]
    simp [UnpackedFloat.isFinite]
  case zero s => simp [UnpackedFloat.isFinite, number, this]
  case finite s m e hm => exact iff_of_true rfl (abs_number_lt_limit h)

theorem compare_neg_neg (p q : ℚ) : compare (-p) (-q) = (compare p q).swap := by
  rcases lt_trichotomy p q with h | rfl | h
  · rw [compare_lt_iff_lt.mpr h, compare_gt_iff_gt.mpr (neg_lt_neg h)]; rfl
  · simp
  · rw [compare_gt_iff_gt.mpr h, compare_lt_iff_lt.mpr (neg_lt_neg h)]; rfl

section Compare

variable {u : UnpackedFloat} {s s' : Sign} {m m' : ℕ} {e e' : ℤ} {hm : 0 < m} {hm' : 0 < m'}

-- Infinity lies beyond whatever has a value below the limit.

theorem compare_infinity_left (hf : u.isFinite) (h : |number u| < limit) :
    (UnpackedFloat.infinity s).compare u = some (compare (number (.infinity s)) (number u)) := by
  have ⟨h₁, h₂⟩ := abs_lt.mp h
  cases s
  case negative =>
    have : compare (number (.infinity .negative)) (number u) = .lt :=
      compare_lt_iff_lt.mpr (by simpa [number, signum] using h₁)
    rw [this]
    cases u <;> first | rfl | cases hf
  case positive =>
    have : compare (number (.infinity .positive)) (number u) = .gt :=
      compare_gt_iff_gt.mpr (by simpa [number, signum] using h₂)
    rw [this]
    cases u <;> first | rfl | cases hf

theorem compare_infinity_right (hf : u.isFinite) (h : |number u| < limit) :
    u.compare (.infinity s) = some (compare (number u) (number (.infinity s))) := by
  have ⟨h₁, h₂⟩ := abs_lt.mp h
  cases s
  case negative =>
    have : compare (number u) (number (.infinity .negative)) = .gt :=
      compare_gt_iff_gt.mpr (by simpa [number, signum] using h₁)
    rw [this]
    cases u <;> first | rfl | cases hf
  case positive =>
    have : compare (number u) (number (.infinity .positive)) = .lt :=
      compare_lt_iff_lt.mpr (by simpa [number, signum] using h₂)
    rw [this]
    cases u <;> first | rfl | cases hf

theorem compare_infinity_infinity :
    (UnpackedFloat.infinity s).compare (.infinity s') =
      some (compare (number (.infinity s)) (number (.infinity s'))) := by
  have hlt : -limit < limit := by linarith [limit_pos]
  cases s <;> cases s' <;> simp only [number, signum, neg_mul, one_mul]
  · rw [compare_eq_iff_eq.mpr rfl]; rfl
  · rw [compare_lt_iff_lt.mpr hlt]; rfl
  · rw [compare_gt_iff_gt.mpr hlt]; rfl
  · rw [compare_eq_iff_eq.mpr rfl]; rfl

theorem compare_zero_left (hf : u.isFinite) :
    (zero s).compare u = some (compare 0 (number u)) := by
  cases u
  case infinity | notANumber => cases hf
  case zero => rfl
  case finite s' m e hm =>
    have hp : (0 : ℚ) < m * 2 ^ e := by positivity
    cases s' <;> simp only [number, signum, neg_mul, one_mul]
    · rw [compare_gt_iff_gt.mpr (neg_neg_of_pos hp)]; rfl
    · rw [compare_lt_iff_lt.mpr hp]; rfl

theorem compare_zero_right (hf : u.isFinite) :
    u.compare (.zero s) = some (compare (number u) 0) := by
  cases u
  case infinity | notANumber => cases hf
  case zero => rfl
  case finite s' m e hm =>
    have hp : (0 : ℚ) < m * 2 ^ e := by positivity
    cases s' <;> simp only [number, signum, neg_mul, one_mul]
    · rw [compare_lt_iff_lt.mpr (neg_neg_of_pos hp)]; rfl
    · rw [compare_gt_iff_gt.mpr hp]; rfl

theorem compare_finite (h : Canonical m e) (h' : Canonical m' e') :
    (finite s m e hm).compare (.finite s' m' e' hm') =
      some (compare (number (.finite s m e hm)) (number (.finite s' m' e' hm'))) := by
  have hp : (0 : ℚ) < m * 2 ^ e := by positivity
  have hp' : (0 : ℚ) < m' * 2 ^ e' := by positivity
  have hc := h.compare_eq h'
  cases s <;> cases s' <;>
    simp only [number, signum, neg_mul, one_mul, UnpackedFloat.compare]
  · rw [hc, compare_neg_neg]
  · rw [compare_lt_iff_lt.mpr (by linarith)]
  · rw [compare_gt_iff_gt.mpr (by linarith)]
  · rw [hc]

end Compare

-- With both zeros equal and infinity beyond all others, the order of numbers is that of their values.
theorem compare_decoded {x y : Float} (hx : IsNumber x) (hy : IsNumber y) :
    (decoded x).compare (decoded y) = some (compare (value x) (value y)) := by
  have hzero (s : Sign) : |number (.zero s)| < limit := by simpa [number] using limit_pos
  rw [value, value]
  cases hu : decoded x <;> cases hv : decoded y
  case notANumber.notANumber | notANumber.infinity | notANumber.zero | notANumber.finite =>
    exact absurd hu (isNumber_iff.mp hx)
  case infinity.notANumber | zero.notANumber | finite.notANumber =>
    exact absurd hv (isNumber_iff.mp hy)
  case infinity.infinity => exact compare_infinity_infinity
  case infinity.zero => exact compare_infinity_left rfl (hzero _)
  case infinity.finite => exact compare_infinity_left rfl (abs_number_lt_limit hv)
  case zero.infinity => exact compare_infinity_right rfl (hzero _)
  case finite.infinity => exact compare_infinity_right rfl (abs_number_lt_limit hu)
  case zero.zero | zero.finite => exact compare_zero_left rfl
  case finite.zero => exact compare_zero_right rfl
  case finite.finite => exact compare_finite (canonical_of_decoded hu) (canonical_of_decoded hv)

section Order

variable {x y : Float}

theorem lt_iff_decoded : x < y ↔ (decoded x).lt (decoded y) = true := by
  change decide (x.toModel < y.toModel) = true ↔ _
  rw [decide_eq_true_iff]
  rfl

theorem le_iff_decoded : x ≤ y ↔ (decoded x).le (decoded y) = true := by
  change decide (x.toModel ≤ y.toModel) = true ↔ _
  rw [decide_eq_true_iff]
  rfl

theorem lt_iff_value_lt (hx : IsNumber x) (hy : IsNumber y) : x < y ↔ value x < value y := by
  rw [lt_iff_decoded, UnpackedFloat.lt, compare_decoded hx hy]
  simp [compare_lt_iff_lt]

theorem le_iff_value_le (hx : IsNumber x) (hy : IsNumber y) : x ≤ y ↔ value x ≤ value y := by
  rw [le_iff_decoded, UnpackedFloat.le, compare_decoded hx hy]
  simp [← compare_le_iff_le, Ordering.isLE_iff_ne_gt]

theorem beq_iff_value_eq (hx : IsNumber x) (hy : IsNumber y) : (x == y) = true ↔ value x = value y := by
  change (decoded x).beq (decoded y) = true ↔ _
  rw [UnpackedFloat.beq, compare_decoded hx hy]
  simp

-- Only numbers compare.
theorem isNumber_of_le (h : x ≤ y) : IsNumber x ∧ IsNumber y := by
  rw [le_iff_decoded] at h
  constructor <;> rw [isNumber_iff] <;> intro h' <;> rw [UnpackedFloat.le, h'] at h
  · cases h
  · cases hx : decoded x <;> rw [hx] at h <;> cases h

theorem isNumber_of_lt (h : x < y) : IsNumber x ∧ IsNumber y := by
  rw [lt_iff_decoded] at h
  constructor <;> rw [isNumber_iff] <;> intro h' <;> rw [UnpackedFloat.lt, h'] at h
  · cases h
  · cases hx : decoded x <;> rw [hx] at h <;> cases h

end Order

section Encoded

variable {u : UnpackedFloat}

theorem value_encoded (h : IsCanonical u) :
    value (encoded u) = max (-limit) (min limit (number u)) := by
  have hl := limit_pos
  rw [value]
  cases u
  case infinity s =>
    rw [decoded_encoded_infinity]
    cases s <;> simp [number, signum, hl.le]
  case notANumber => simp [decoded_encoded_notANumber, number, hl.le]
  case zero s => simp [decoded_encoded_zero, number, hl.le]
  case finite s m e hm =>
    by_cases he : e ≤ 971
    case pos =>
      have hb := (h.representable s he).bounded
      rw [decoded_encoded_finite h he, number]
      have ⟨h₁, h₂⟩ := abs_le.mp hb
      rw [min_eq_right h₂, max_eq_right h₁]
    case neg =>
      have hb := Canonical.limit_le_mul h (not_le.mp he)
      rw [decoded_encoded_overflow (not_le.mp he), number, number]
      cases s <;> simp only [signum, neg_mul, one_mul]
      · rw [min_eq_right (by linarith), max_eq_left (by linarith)]
      · rw [min_eq_left hb, max_eq_right (by linarith)]

theorem isNumber_encoded (h : IsCanonical u) (hu : u ≠ .notANumber) : IsNumber (encoded u) := by
  rw [isNumber_iff]
  cases u
  case infinity s => simp [decoded_encoded_infinity]
  case notANumber => exact absurd rfl hu
  case zero s => simp [decoded_encoded_zero]
  case finite s m e hm =>
    by_cases he : e ≤ 971
    · simp [decoded_encoded_finite h he]
    · simp [decoded_encoded_overflow (not_le.mp he)]

end Encoded

end ContainerSizing.Binary64
