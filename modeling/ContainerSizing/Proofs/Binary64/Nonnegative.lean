import ContainerSizing.Proofs.Binary64.Arithmetic

namespace ContainerSizing.Binary64

open Float.Model Float.Model.UnpackedFloat

-- Infinity is one of them.
structure IsNonneg (x : Float) : Prop where
  isNumber : IsNumber x
  nonneg   : 0 ≤ value x

@[simp] theorem decoded_zero : decoded 0.0 = .zero .positive :=
  rfl

@[simp] theorem value_zero : value 0.0 = 0 := by
  simp [value, number]

theorem isNumber_zero : IsNumber 0.0 :=
  isNumber_of_isFinite rfl

theorem isNonneg_zero : IsNonneg 0.0 :=
  ⟨isNumber_zero, value_zero.ge⟩

theorem pos_iff_value_pos {x : Float} (h : IsNumber x) : x > 0.0 ↔ 0 < value x := by
  rw [gt_iff_lt, lt_iff_value_lt isNumber_zero h, value_zero]

theorem not_pos_iff_le_zero {x : Float} (h : IsNumber x) : ¬x > 0.0 ↔ x ≤ 0.0 := by
  rw [pos_iff_value_pos h, le_iff_value_le h isNumber_zero, value_zero, not_lt]

theorem isMeasure_iff {x : Float} : isMeasure x ↔ x.isFinite ∧ 0 ≤ value x := by
  simp only [isMeasure, Bool.and_eq_true, Bool.not_eq_true', decide_eq_false_iff_not]
  apply and_congr_right
  intro h
  change ¬x < 0.0 ↔ _
  rw [lt_iff_value_lt (isNumber_of_isFinite h) isNumber_zero, value_zero, not_lt]

theorem isMeasure_iff_le {x : Float} : isMeasure x ↔ x.isFinite ∧ 0.0 ≤ x := by
  rw [isMeasure_iff]
  apply and_congr_right
  intro h
  rw [le_iff_value_le isNumber_zero (isNumber_of_isFinite h), value_zero]

section Infinity

variable {u : UnpackedFloat}

-- Infinity swallows whatever is finite.

theorem add_infinity (h : u.isFinite) :
    u.add .binary64 (.infinity .positive) = .infinity .positive := by
  cases u
  case infinity | notANumber => cases h
  all_goals rfl

theorem infinity_add (h : u.isFinite) :
    UnpackedFloat.add .binary64 (.infinity .positive) u = .infinity .positive := by
  cases u
  case infinity | notANumber => cases h
  all_goals rfl

theorem infinity_sub (h : u.isFinite) :
    UnpackedFloat.sub .binary64 (.infinity .positive) u = .infinity .positive := by
  cases u
  case infinity | notANumber => cases h
  all_goals rfl

end Infinity

namespace IsNonneg

variable {x y : Float}

theorem of_isMeasure (h : isMeasure x) : IsNonneg x :=
  have ⟨hx, hv⟩ := isMeasure_iff.mp h
  ⟨isNumber_of_isFinite hx, hv⟩

theorem of_mem_filter {xs : List Float} : ∀ x ∈ xs.filter isMeasure, IsNonneg x :=
  fun _ hx => .of_isMeasure (List.mem_filter.mp hx).right

theorem of_pos (h : x > 0.0) : IsNonneg x :=
  have hn := (isNumber_of_lt h).right
  ⟨hn, ((pos_iff_value_pos hn).mp h).le⟩

theorem finite_or_infinity (h : IsNonneg x) : x.isFinite ∨ decoded x = .infinity .positive := by
  have hx := isNumber_iff.mp h.isNumber
  have hv := h.nonneg
  have hl := limit_pos
  change (decoded x).isFinite = true ∨ _
  rw [value] at hv
  cases hu : decoded x <;> rw [hu] at hv
  case notANumber => exact absurd hu hx
  case infinity s =>
    cases s
    · simp only [number, signum] at hv
      linarith
    · exact .inr rfl
  all_goals exact .inl rfl

theorem value_eq_limit (h : decoded x = .infinity .positive) : value x = limit := by
  simp [value, h, number, signum]

theorem of_decoded_eq (h : decoded x = .infinity .positive) : IsNonneg x where
  isNumber := by
    rw [isNumber_iff, h]
    exact nofun
  nonneg := by
    rw [value_eq_limit h]
    exact limit_pos.le

theorem add (hx : IsNonneg x) (hy : IsNonneg y) : IsNonneg (x + y) := by
  have of_add (h : (decoded x).add .binary64 (decoded y) = .infinity .positive) : IsNonneg (x + y) := by
    apply of_decoded_eq
    change decoded (encoded ((decoded x).add .binary64 (decoded y))) = _
    rw [h, decoded_encoded_infinity]
  rcases hx.finite_or_infinity with hx' | hx' <;> rcases hy.finite_or_infinity with hy' | hy'
  · refine ⟨isNumber_add hx' hy', ?_⟩
    rw [value_add hx' hy']
    exact rounded_nonneg (add_nonneg hx.nonneg hy.nonneg)
  · apply of_add
    rw [hy']
    exact add_infinity hx'
  · apply of_add
    rw [hx']
    exact infinity_add hy'
  · apply of_add
    rw [hx', hy']
    rfl

-- The other factor must not vanish: zero times infinity is no number.
theorem mul (hx : IsNonneg x) (hy : y.isFinite) (hpos : 0 < value y) : IsNonneg (x * y) := by
  cases hx.finite_or_infinity
  case inl hx' =>
    refine ⟨isNumber_mul hx' hy, ?_⟩
    rw [value_mul hx' hy]
    exact rounded_nonneg (mul_nonneg hx.nonneg hpos.le)
  case inr hx' =>
    apply of_decoded_eq
    change decoded (encoded ((decoded x).mul .binary64 (decoded y))) = _
    have hy : (decoded y).isFinite = true := hy
    rw [value] at hpos
    rw [hx']
    cases hu : decoded y <;> rw [hu] at hy hpos
    case infinity | notANumber => cases hy
    case zero s => simp [number] at hpos
    case finite s m e hm =>
      cases s
      · have : (0 : ℚ) < m * 2 ^ e := by positivity
        simp only [number, signum] at hpos
        linarith
      · exact decoded_encoded_infinity

-- What loses to a number that is not below zero is none of its own.
theorem larger (hy : IsNonneg y) : IsNonneg (larger x y) := by
  unfold Binary64.larger
  split
  case isTrue => exact hy
  case isFalse hx =>
    have hx : IsNumber x := by simpa [IsNumber] using hx
    split
    · exact hy
    case isFalse h =>
      refine ⟨hx, hy.nonneg.trans ?_⟩
      rw [gt_iff_lt, lt_iff_value_lt hx hy.isNumber] at h
      exact not_lt.mp h

theorem smaller (hx : IsNonneg x) (hy : IsNonneg y) : IsNonneg (smaller x y) := by
  unfold Binary64.smaller
  split_ifs <;> assumption

end IsNonneg

theorem negative_parts (x : Float) : (parts x).negative = isNegative x := by
  rw [parts]
  split <;> rfl

-- Only a zero has a sign below it.
theorem toNearest?_nonneg {x : Float} {n : ℤ} (hx : 0 ≤ value x) (h : toNearest? x = some n) :
    0 ≤ n := by
  rw [toNearest?] at h
  split at h
  case isFalse => cases h
  case isTrue hf =>
    injection h with h
    by_cases hm : (parts x).mantissa = 0
    case pos =>
      have : (parts x).nearest = 0 := by
        have := (parts x).denominator_pos
        simp only [Parts.nearest, Parts.numerator, hm, Nat.zero_shiftLeft]
        exact Nat.div_eq_of_lt (by omega)
      rw [this] at h
      split at h <;> omega
    case neg =>
      have hneg : isNegative x = false := by
        by_contra hneg
        rw [value, decoded_eq_parts hf, dif_neg hm, sign, if_pos (by simpa using hneg)] at hx
        have : (0 : ℚ) < (parts x).mantissa * 2 ^ (parts x).exponent := by positivity
        simp only [number, signum] at hx
        linarith
      rw [negative_parts, hneg] at h
      simp only [Bool.false_eq_true, if_false] at h
      omega

section Differences

variable {x y : Float}

theorem exists_value_eq_mul (x : Float) : ∃ n : ℤ, value x = n * 2 ^ (-1074 : ℤ) := by
  obtain ⟨⟨n, e, hv, -, he⟩, -⟩ := representable_value x
  have hpow : (2 : ℚ) ^ e = 2 ^ (e + 1074).toNat * 2 ^ (-1074 : ℤ) := by
    rw [← zpow_natCast, ← zpow_add₀ two_ne_zero]
    congr 1
    omega
  refine ⟨n * 2 ^ (e + 1074).toNat, ?_⟩
  rw [hv, hpow, Int.cast_mul, Int.cast_pow, Int.cast_ofNat, mul_assoc]

theorem representable_least : Representable (2 ^ (-1074 : ℤ)) where
  multiple := ⟨1, -1074, by simp, by norm_num, le_rfl⟩
  bounded  := by
    rw [abs_of_pos (by positivity), limit, ← zpow_natCast]
    exact zpow_le_zpow_right₀ one_le_two (by norm_num)

-- A difference is never rounded down to zero.
theorem rounded_sub_pos_iff :
    0 < rounded (value x - value y) ↔ value y < value x := by
  constructor
  case mp =>
    intro h
    by_contra hle
    have := rounded_monotone (sub_nonpos.mpr (not_lt.mp hle))
    rw [rounded_zero] at this
    linarith
  case mpr =>
    intro h
    obtain ⟨n, hn⟩ := exists_value_eq_mul x
    obtain ⟨m, hm⟩ := exists_value_eq_mul y
    have hp : (0 : ℚ) < 2 ^ (-1074 : ℤ) := by positivity
    have hlt : m < n := by
      rw [hn, hm] at h
      exact_mod_cast lt_of_mul_lt_mul_right h hp.le
    -- both are multiples of the least number, so they differ by at least that much
    have hle : (2 : ℚ) ^ (-1074 : ℤ) ≤ value x - value y := by
      rw [hn, hm, ← sub_mul]
      apply le_mul_of_one_le_left hp.le
      have : m + 1 ≤ n := hlt
      have : ((m + 1 : ℤ) : ℚ) ≤ n := by exact_mod_cast this
      push_cast at this
      linarith
    have := rounded_monotone hle
    rw [rounded_eq_self representable_least] at this
    exact hp.trans_le this

theorem sub_pos_iff (hx : IsNonneg x) (hy : y.isFinite) : x - y > 0.0 ↔ x > y := by
  have hy' := isNumber_of_isFinite hy
  have hlt : x > y ↔ value y < value x := lt_iff_value_lt hy' hx.isNumber
  rw [hlt]
  cases hx.finite_or_infinity
  case inl hx' => rw [pos_iff_value_pos (isNumber_sub hx' hy), value_sub hx' hy, rounded_sub_pos_iff]
  case inr hx' =>
    have hd : decoded (x - y) = .infinity .positive := by
      change decoded (encoded ((decoded x).sub .binary64 (decoded y))) = _
      rw [hx', infinity_sub (u := decoded y) hy, decoded_encoded_infinity]
    have hn := (IsNonneg.of_decoded_eq hd).isNumber
    have hlt := (abs_lt.mp ((isFinite_iff_abs_value_lt hy').mp hy)).2
    rw [pos_iff_value_pos hn, IsNonneg.value_eq_limit hd, IsNonneg.value_eq_limit hx']
    exact iff_of_true limit_pos hlt

end Differences

-- The largest finite number.
def greatest : Float :=
  encoded (.finite .positive (2 ^ 53 - 1) 971 (by norm_num))

theorem value_le_greatest {x : Float} (h : x.isFinite) : value x ≤ value greatest := by
  have hc : Canonical (2 ^ 53 - 1) 971 := ⟨by norm_num, by norm_num, .inl (by norm_num)⟩
  have hg : value greatest = (2 ^ 53 - 1 : ℕ) * 2 ^ (971 : ℤ) := by
    rw [value, greatest, decoded_encoded_finite hc le_rfl, number, signum, one_mul]
  have h : (decoded x).isFinite = true := h
  rw [hg, value]
  cases hu : decoded x <;> rw [hu] at h
  case infinity | notANumber => cases h
  case zero s =>
    simp only [number]
    positivity
  case finite s m e hm =>
    have hm' : m ≤ 2 ^ 53 - 1 := Nat.le_sub_one_of_lt (canonical_of_decoded hu).lt_two_pow
    have hle : (m * 2 ^ e : ℚ) ≤ (2 ^ 53 - 1 : ℕ) * 2 ^ (971 : ℤ) := by
      gcongr
      · norm_num
      · exact exponent_le_of_decoded hu
    cases s <;> simp only [number, signum]
    · have : (0 : ℚ) < m * 2 ^ e := by positivity
      linarith
    · linarith

theorem isFinite_greatest : greatest.isFinite := by
  decide +kernel

theorem isFinite_one_add_greatest : (1.0 + greatest).isFinite := by
  decide +kernel

theorem value_one : value 1.0 = 1 := by
  have : decoded 1.0 = .finite .positive (2 ^ 52) (-52) (by norm_num) := rfl
  rw [value, this, number, signum]
  norm_num

theorem one_le_value_one_add {x : Float} (h : isMeasure x) : 1 ≤ value (1.0 + x) := by
  have ⟨hx, hv⟩ := isMeasure_iff.mp h
  have := rounded_monotone (show value 1.0 ≤ value 1.0 + value x by linarith)
  rwa [rounded_eq_self (representable_value 1.0), ← value_add rfl hx, value_one] at this

-- Adding one to a measure stays in range, as large as the measure may be.
theorem isFinite_one_add {x : Float} (h : isMeasure x) : (1.0 + x).isFinite ∧ 0 < value (1.0 + x) := by
  have ⟨hx, _⟩ := isMeasure_iff.mp h
  have hone : (1.0 : Float).isFinite := rfl
  have hpos := one_le_value_one_add h
  have hlt : value (1.0 + x) < limit := by
    have hle := rounded_monotone (add_le_add_right (value_le_greatest hx) (value 1.0))
    rw [← value_add hone hx, ← value_add hone isFinite_greatest] at hle
    have hg := (isFinite_iff_abs_value_lt (isNumber_add hone isFinite_greatest)).mp
      isFinite_one_add_greatest
    exact hle.trans_lt (abs_lt.mp hg).2
  refine ⟨(isFinite_iff_abs_value_lt (isNumber_add hone hx)).mpr ?_, by linarith⟩
  exact abs_lt.mpr ⟨by linarith, hlt⟩

end ContainerSizing.Binary64
