import ContainerSizing.Proofs.Binary64.Finite

namespace ContainerSizing.Binary64

variable {x c c' goal : Float} {xs ys : List Float}

section Roundoff

-- How far a number can be from the nearest one with 53 bits, as a part of it.
def roundoff : ℚ :=
  1 / 2 ^ 53

theorem roundoff_pos : 0 < roundoff := by
  unfold roundoff
  positivity

theorem roundoff_le_one : roundoff ≤ 1 := by
  unfold roundoff
  norm_num

theorem abs_nearestEven_sub_le (q : ℚ) : |nearestEven q - q| ≤ 1 / 2 := by
  have hq := Int.floor_add_fract q
  have h₀ := Int.fract_nonneg q
  have h₁ := Int.fract_lt_one q
  rw [abs_le]
  unfold nearestEven
  split_ifs with hlt hgt
  case pos => constructor <;> linarith
  case pos =>
    push_cast
    constructor <;> linarith
  case neg =>
    -- a tie goes down or up, by one half either way
    rcases Int.emod_two_eq_zero_or_one ⌊q⌋ with h | h <;> rw [h] <;> push_cast <;>
      constructor <;> linarith

theorem abs_onGrid_sub_le (q : ℚ) : |onGrid q - q| ≤ 2 ^ gridExponent q / 2 := by
  have hp : (0 : ℚ) < 2 ^ gridExponent q := by positivity
  have hq : onGrid q - q = (nearestEven (q / 2 ^ gridExponent q) - q / 2 ^ gridExponent q) *
      2 ^ gridExponent q := by
    rw [onGrid, sub_mul, div_mul_cancel₀ _ hp.ne']
  rw [hq, abs_mul, abs_of_pos hp]
  have := mul_le_mul_of_nonneg_right (abs_nearestEven_sub_le (q / 2 ^ gridExponent q)) hp.le
  linarith

-- Below the normal numbers nothing is lost, as long as there is nothing below the least number.
theorem abs_onGrid_sub_le_roundoff {q : ℚ} (hq : 0 < q) (hn : ∃ n : ℤ, q = n * 2 ^ (-1074 : ℤ)) :
    |onGrid q - q| ≤ roundoff * q := by
  by_cases hg : gridExponent q = -1074
  case pos =>
    obtain ⟨n, hn⟩ := hn
    rw [onGrid_eq_self hn hg.le, sub_self, abs_zero]
    exact (mul_pos roundoff_pos hq).le
  case neg =>
    have he : gridExponent q = Int.log 2 q - 52 := by
      simp only [gridExponent, abs_of_pos hq] at *
      omega
    have hle := Int.zpow_log_le_self (R := ℚ) (b := 2) one_lt_two hq
    calc |onGrid q - q|
      _ ≤ 2 ^ gridExponent q / 2 := abs_onGrid_sub_le q
      _ = roundoff * 2 ^ Int.log 2 q := by
        rw [he, zpow_sub₀ two_ne_zero, roundoff]
        norm_num
        ring
      _ ≤ roundoff * q := by
        have := roundoff_pos
        gcongr
        exact_mod_cast hle

end Roundoff

section Addition

theorem exists_value_add_eq_mul (x y : Float) :
    ∃ n : ℤ, value x + value y = n * 2 ^ (-1074 : ℤ) := by
  obtain ⟨n, hn⟩ := exists_value_eq_mul x
  obtain ⟨m, hm⟩ := exists_value_eq_mul y
  exact ⟨n + m, by rw [hn, hm, Int.cast_add, add_mul]⟩

variable {x y : Float}

theorem value_add_le (hx : IsNonneg x) (hy : IsNonneg y) :
    value (x + y) ≤ (1 + roundoff) * (value x + value y) := by
  have hl := limit_pos
  rw [hx.value_add hy]
  rcases (add_nonneg hx.nonneg hy.nonneg).eq_or_lt with hz | hpos
  case inl => rw [← hz, rounded_zero, mul_zero]
  case inr =>
    have ⟨_, h⟩ := abs_le.mp (abs_onGrid_sub_le_roundoff hpos (exists_value_add_eq_mul x y))
    have hp := mul_pos roundoff_pos hpos
    exact max_le (by linarith) ((min_le_right _ _).trans (by linarith))

theorem le_value_add (hx : IsNonneg x) (hy : IsNonneg y) :
    min limit ((1 - roundoff) * (value x + value y)) ≤ value (x + y) := by
  rw [hx.value_add hy]
  rcases (add_nonneg hx.nonneg hy.nonneg).eq_or_lt with hz | hpos
  case inl => rw [← hz, rounded_zero, mul_zero]; exact min_le_right _ _
  case inr =>
    have ⟨h, _⟩ := abs_le.mp (abs_onGrid_sub_le_roundoff hpos (exists_value_add_eq_mul x y))
    exact le_max_of_le_right (min_le_min le_rfl (by linarith))

end Addition

section Accumulation

-- What `start` comes to with all of `xs` on top of it.
def accumulate (start : Float) (xs : List Float) : Float :=
  xs.foldl (· + ·) start

@[simp] theorem accumulate_nil (c : Float) : accumulate c [] = c := rfl

@[simp] theorem accumulate_cons (c x : Float) (xs : List Float) :
    accumulate c (x :: xs) = accumulate (c + x) xs := rfl

theorem sum_eq_accumulate (xs : List Float) : sum xs = accumulate (-0.0) xs :=
  rfl

theorem isNonneg_accumulate (hc : IsNonneg c) (hx : ∀ x ∈ xs, IsNonneg x) :
    IsNonneg (accumulate c xs) := by
  induction xs generalizing c
  case nil => exact hc
  case cons y ys hi =>
    have ⟨hy, hys⟩ := List.forall_mem_cons.mp hx
    exact hi (hc.add hy) hys

theorem value_le_accumulate (hc : IsNonneg c) (hx : ∀ x ∈ xs, IsNonneg x) :
    value c ≤ value (accumulate c xs) := by
  induction xs generalizing c
  case nil => exact le_rfl
  case cons y ys hi =>
    have ⟨hy, hys⟩ := List.forall_mem_cons.mp hx
    exact (hc.value_le_add_left hy).trans (hi (hc.add hy) hys)

-- What has been reached on the way is not lost again.
theorem le_accumulate (hc : IsNonneg c) (hx : ∀ x ∈ xs, IsNonneg x) (h : goal ≤ c) :
    goal ≤ accumulate c xs :=
  Binary64.le_trans h <| (le_iff_value_le hc.isNumber (isNonneg_accumulate hc hx).isNumber).mpr <|
    value_le_accumulate hc hx

theorem value_accumulate_mono (hc : IsNonneg c) (hc' : IsNonneg c') (hx : ∀ x ∈ xs, IsNonneg x)
    (h : value c ≤ value c') : value (accumulate c xs) ≤ value (accumulate c' xs) := by
  induction xs generalizing c c'
  case nil => exact h
  case cons y ys hi =>
    have ⟨hy, hys⟩ := List.forall_mem_cons.mp hx
    have hadd : value (c + y) ≤ value (c' + y) := by
      rw [hc.value_add hy, hc'.value_add hy]
      exact rounded_monotone (by linarith)
    exact hi (hc.add hy) (hc'.add hy) hys hadd

theorem value_accumulate_congr (hc : IsNonneg c) (hc' : IsNonneg c') (hx : ∀ x ∈ xs, IsNonneg x)
    (h : value c = value c') : value (accumulate c xs) = value (accumulate c' xs) :=
  le_antisymm (value_accumulate_mono hc hc' hx h.le) (value_accumulate_mono hc' hc hx h.ge)

-- More numbers do not come to less, wherever they are added.
theorem value_accumulate_le_of_sublist (hs : xs.Sublist ys) (hc : IsNonneg c)
    (hy : ∀ y ∈ ys, IsNonneg y) : value (accumulate c xs) ≤ value (accumulate c ys) := by
  induction hs generalizing c
  case slnil => exact le_rfl
  case cons xs ys y hs hi =>
    have ⟨hy, hys⟩ := List.forall_mem_cons.mp hy
    have hx : ∀ x ∈ xs, IsNonneg x := fun x hx => hys x (hs.subset hx)
    calc value (accumulate c xs)
      _ ≤ value (accumulate (c + y) xs) :=
        value_accumulate_mono hc (hc.add hy) hx (hc.value_le_add_left hy)
      _ ≤ value (accumulate (c + y) ys) := hi (hc.add hy) hys
  case cons_cons xs ys y hs hi =>
    have ⟨hy, hys⟩ := List.forall_mem_cons.mp hy
    exact hi (hc.add hy) hys

theorem value_accumulate_le (hc : IsNonneg c) (hx : ∀ x ∈ xs, IsNonneg x) :
    value (accumulate c xs) ≤ (1 + roundoff) ^ xs.length * (value c + (xs.map value).sum) := by
  induction xs generalizing c
  case nil => simp
  case cons y ys hi =>
    have ⟨hy, hys⟩ := List.forall_mem_cons.mp hx
    have hu := roundoff_pos
    have hsum : 0 ≤ (ys.map value).sum :=
      List.sum_nonneg (List.forall_mem_map.mpr fun x hx => (hys x hx).nonneg)
    calc value (accumulate (c + y) ys)
      _ ≤ (1 + roundoff) ^ ys.length * (value (c + y) + (ys.map value).sum) := hi (hc.add hy) hys
      _ ≤ (1 + roundoff) ^ ys.length *
          ((1 + roundoff) * (value c + value y) + (1 + roundoff) * (ys.map value).sum) := by
        gcongr
        · exact value_add_le hc hy
        · exact le_mul_of_one_le_left hsum (by linarith)
      _ = (1 + roundoff) ^ (y :: ys).length * (value c + ((y :: ys).map value).sum) := by
        simp only [List.length_cons, List.map_cons, List.sum_cons, pow_succ]
        ring

theorem le_value_accumulate (hc : IsNonneg c) (hx : ∀ x ∈ xs, IsNonneg x) :
    min limit ((1 - roundoff) ^ xs.length * (value c + (xs.map value).sum)) ≤
      value (accumulate c xs) := by
  induction xs generalizing c
  case nil => simp
  case cons y ys hi =>
    have ⟨hy, hys⟩ := List.forall_mem_cons.mp hx
    have hu := roundoff_pos
    have hu' := roundoff_le_one
    have hsum : 0 ≤ (ys.map value).sum :=
      List.sum_nonneg (List.forall_mem_map.mpr fun x hx => (hys x hx).nonneg)
    rcases min_le_iff.mp (le_value_add hc hy) with hlim | hle
    case inl =>
      exact (min_le_left _ _).trans (hlim.trans (value_le_accumulate (hc.add hy) hys))
    case inr =>
      refine le_trans (min_le_min le_rfl ?_) (hi (hc.add hy) hys)
      have hpow : 0 ≤ (1 - roundoff) ^ ys.length := pow_nonneg (by linarith) _
      calc (1 - roundoff) ^ (y :: ys).length * (value c + ((y :: ys).map value).sum)
        _ = (1 - roundoff) ^ ys.length *
            ((1 - roundoff) * (value c + value y) + (1 - roundoff) * (ys.map value).sum) := by
          simp only [List.length_cons, List.map_cons, List.sum_cons, pow_succ]
          ring
        _ ≤ (1 - roundoff) ^ ys.length * (value (c + y) + (ys.map value).sum) := by
          gcongr
          exact mul_le_of_le_one_left hsum (by linarith)

-- Multiples of one power of two add up without rounding as long as 53 bits are enough.
theorem value_accumulate_eq {e : ℤ} (he : -1074 ≤ e) (he' : e ≤ 971) (hc : IsNonneg c)
    (hx : ∀ x ∈ xs, IsNonneg x) (hn : ∃ n : ℕ, value c = n * 2 ^ e)
    (hm : ∀ x ∈ xs, ∃ m : ℕ, value x = m * 2 ^ e)
    (hle : value c + (xs.map value).sum ≤ 2 ^ (e + 53)) :
    value (accumulate c xs) = value c + (xs.map value).sum := by
  induction xs generalizing c
  case nil => simp
  case cons y ys hi =>
    have ⟨hy, hys⟩ := List.forall_mem_cons.mp hx
    have ⟨⟨m, hm⟩, hms⟩ := List.forall_mem_cons.mp hm
    obtain ⟨n, hn⟩ := hn
    have hsum : 0 ≤ (ys.map value).sum :=
      List.sum_nonneg (List.forall_mem_map.mpr fun x hx => (hys x hx).nonneg)
    have hcy : value c + value y = (n + m : ℕ) * 2 ^ e := by
      rw [hn, hm]
      push_cast
      ring
    rw [List.map_cons, List.sum_cons, ← add_assoc] at hle ⊢
    have hbits : n + m ≤ 2 ^ 53 := by
      have hle : ((n + m : ℕ) * 2 ^ e : ℚ) ≤ 2 ^ 53 * 2 ^ e := by
        rw [← hcy, mul_comm, ← zpow_natCast, ← zpow_add₀ two_ne_zero]
        exact (le_add_of_nonneg_right hsum).trans hle
      exact_mod_cast le_of_mul_le_mul_right hle (by positivity)
    have hadd : value (c + y) = value c + value y := by
      rw [hc.value_add hy, hcy]
      exact rounded_eq_self (representable_natCast_mul_zpow hbits he he')
    rw [← hadd] at hle ⊢
    exact hi (hc.add hy) hys ⟨n + m, hadd.trans hcy⟩ hms hle

-- So many numbers of `k` bits that they can be counted: nothing is rounded up beyond their bounds.
theorem value_accumulate_le_mul {k m : ℕ} (hk : k ≤ 971) (hc : IsNonneg c) (hm : value c ≤ m * 2 ^ k)
    (hx : ∀ x ∈ xs, IsUpTo k x) (hn : m + xs.length ≤ 2 ^ 53) :
    value (accumulate c xs) ≤ (m + xs.length : ℕ) * 2 ^ k := by
  induction xs generalizing c m
  case nil => simpa using hm
  case cons y ys hi =>
    have ⟨hy, hys⟩ := List.forall_mem_cons.mp hx
    rw [List.length_cons] at hn
    have hadd : value (c + y) ≤ (m + 1 : ℕ) * 2 ^ k := by
      have hr : Representable ((m + 1 : ℕ) * 2 ^ k) := by
        have := representable_natCast_mul_zpow (n := m + 1) (e := k) (by omega) (by omega) (by omega)
        rwa [zpow_natCast] at this
      rw [hc.value_add hy.isNonneg]
      refine (rounded_monotone ?_).trans_eq (rounded_eq_self hr)
      push_cast
      linarith [hy.value_le]
    have := hi (hc.add hy.isNonneg) hadd hys (by omega)
    rwa [List.length_cons, Nat.add_comm ys.length 1, ← Nat.add_assoc]

end Accumulation

section Sums

theorem isNonneg_neg_zero : IsNonneg (-0.0) where
  isNumber := isNumber_of_isFinite rfl
  nonneg   := by
    have : decoded (-0.0) = .zero .negative := rfl
    simp [value, this, number]

theorem value_neg_zero : value (-0.0) = 0 := by
  have : decoded (-0.0) = .zero .negative := rfl
  simp [value, this, number]

variable (hx : ∀ x ∈ xs, IsNonneg x)
include hx

theorem isNonneg_sum : IsNonneg (sum xs) :=
  isNonneg_accumulate isNonneg_neg_zero hx

theorem value_sum : value (sum xs) = value (accumulate 0.0 xs) :=
  value_accumulate_congr isNonneg_neg_zero isNonneg_zero hx (by rw [value_neg_zero, value_zero])

theorem value_sum_le : value (sum xs) ≤ (1 + roundoff) ^ xs.length * (xs.map value).sum := by
  simpa [sum_eq_accumulate, value_neg_zero] using value_accumulate_le isNonneg_neg_zero hx

theorem le_value_sum :
    min limit ((1 - roundoff) ^ xs.length * (xs.map value).sum) ≤ value (sum xs) := by
  simpa [sum_eq_accumulate, value_neg_zero] using le_value_accumulate isNonneg_neg_zero hx

theorem value_sum_eq {e : ℤ} (he : -1074 ≤ e) (he' : e ≤ 971)
    (hm : ∀ x ∈ xs, ∃ m : ℕ, value x = m * 2 ^ e) (hle : (xs.map value).sum ≤ 2 ^ (e + 53)) :
    value (sum xs) = (xs.map value).sum := by
  have := value_accumulate_eq he he' isNonneg_neg_zero hx ⟨0, by simp [value_neg_zero]⟩ hm
    (by rwa [value_neg_zero, zero_add])
  rwa [value_neg_zero, zero_add] at this

end Sums

theorem isFinite_sum {k : ℕ} (hk : k ≤ 970) (hx : ∀ x ∈ xs, IsUpTo k x) (hn : xs.length ≤ 2 ^ 53) :
    (sum xs).isFinite := by
  have hsum : IsNonneg (sum xs) := isNonneg_sum fun x h => (hx x h).isNonneg
  have hle := value_accumulate_le_mul (m := 0) (by omega) isNonneg_neg_zero
    (by simp [value_neg_zero]) hx (by omega)
  rw [hsum.isFinite_iff, sum_eq_accumulate, limit]
  calc value (accumulate (-0.0) xs)
    _ ≤ (0 + xs.length : ℕ) * 2 ^ k := hle
    _ ≤ 2 ^ 53 * 2 ^ 970 := by
      gcongr
      · rw [zero_add]
        exact_mod_cast hn
      · exact one_le_two
    _ < 2 ^ 1024 := by
      rw [← pow_add]
      exact pow_lt_pow_right₀ one_lt_two (by norm_num)

end ContainerSizing.Binary64
