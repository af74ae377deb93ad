import Mathlib.Algebra.Order.Floor.Ring
import Mathlib.Data.Int.Log
import Mathlib.Data.Rat.Floor
import Mathlib.Tactic

namespace ContainerSizing.Binary64

def nearestEven (q : ℚ) : ℤ :=
  if Int.fract q < 1 / 2 then ⌊q⌋
  else if 1 / 2 < Int.fract q then ⌊q⌋ + 1
  else ⌊q⌋ + ⌊q⌋ % 2

theorem floor_le_nearestEven (q : ℚ) : ⌊q⌋ ≤ nearestEven q := by
  unfold nearestEven
  split_ifs <;> omega

theorem nearestEven_le_floor_add_one (q : ℚ) : nearestEven q ≤ ⌊q⌋ + 1 := by
  unfold nearestEven
  split_ifs <;> omega

theorem nearestEven_monotone : Monotone nearestEven := by
  intro p q h
  cases (Int.floor_mono h).lt_or_eq
  case inl hlt =>
    have := nearestEven_le_floor_add_one p
    have := floor_le_nearestEven q
    omega
  case inr heq =>
    have hf : Int.fract p ≤ Int.fract q := by
      simp only [Int.fract, heq]
      linarith
    unfold nearestEven
    rw [heq]
    split_ifs <;> first | omega | linarith

@[simp] theorem nearestEven_intCast (n : ℤ) : nearestEven n = n := by
  simp [nearestEven]

theorem nearestEven_neg (q : ℚ) : nearestEven (-q) = -nearestEven q := by
  by_cases hq : Int.fract q = 0
  case pos =>
    obtain ⟨n, rfl⟩ := Int.fract_eq_zero_iff.mp hq
    rw [← Int.cast_neg, nearestEven_intCast, nearestEven_intCast]
  case neg =>
    have hf : Int.fract (-q) = 1 - Int.fract q := Int.fract_neg hq
    have hn : ⌊-q⌋ = -⌊q⌋ - 1 := by
      have h₁ := Int.floor_add_fract q
      have h₂ := Int.floor_add_fract (-q)
      have : (⌊-q⌋ : ℚ) = -⌊q⌋ - 1 := by linarith
      exact_mod_cast this
    unfold nearestEven
    rw [hf, hn]
    split_ifs <;> first | omega | linarith

theorem nearestEven_eq_of_abs_lt {q : ℚ} {n : ℤ} (h : |q - n| < 1 / 2) : nearestEven q = n := by
  have ⟨hlo, hhi⟩ := abs_lt.mp h
  have hf := Int.floor_add_fract q
  rcases lt_or_ge q n with hlt | hge
  case inl =>
    have hn : ⌊q⌋ = n - 1 := by
      rw [Int.floor_eq_iff]
      push_cast
      constructor <;> linarith
    rw [hn] at hf
    push_cast at hf
    rw [nearestEven, if_neg (by linarith), if_pos (by linarith), hn]
    omega
  case inr =>
    have hn : ⌊q⌋ = n := by
      rw [Int.floor_eq_iff]
      constructor <;> linarith
    rw [hn] at hf
    rw [nearestEven, if_pos (by linarith), hn]

-- An even number also takes the halves on both sides.
theorem nearestEven_eq_of_even {q : ℚ} {n : ℤ} (hn : Even n) (h : |q - n| ≤ 1 / 2) :
    nearestEven q = n := by
  cases h.lt_or_eq
  case inl h => exact nearestEven_eq_of_abs_lt h
  case inr h =>
    have hmod : n % 2 = 0 := Int.even_iff.mp hn
    rcases eq_or_eq_neg_of_abs_eq h with h | h
    case inl =>
      have hq : q = n + 1 / 2 := by linarith
      have hfloor : ⌊q⌋ = n := by
        rw [Int.floor_eq_iff]
        constructor <;> linarith
      have hf := Int.floor_add_fract q
      rw [hfloor] at hf
      rw [nearestEven, if_neg (by linarith), if_neg (by linarith), hfloor, hmod, add_zero]
    case inr =>
      have hfloor : ⌊q⌋ = n - 1 := by
        rw [Int.floor_eq_iff]
        push_cast
        constructor <;> linarith
      have hf := Int.floor_add_fract q
      rw [hfloor] at hf
      push_cast at hf
      rw [nearestEven, if_neg (by linarith), if_neg (by linarith), hfloor]
      omega

-- What an even number takes begins half below it, the half itself included.
theorem nearestEven_lt_iff {q : ℚ} {n : ℤ} (hn : Even n) : nearestEven q < n ↔ q < n - 1 / 2 := by
  constructor
  case mp =>
    intro h
    by_contra hle
    have heq : nearestEven (n - 1 / 2 : ℚ) = n := by
      refine nearestEven_eq_of_even hn ?_
      rw [sub_sub_cancel_left, abs_neg, abs_of_pos (by norm_num)]
    exact h.not_ge (heq.symm.trans_le (nearestEven_monotone (not_lt.mp hle)))
  case mpr =>
    intro h
    have heq : nearestEven (max q (n - 1 : ℤ)) = n - 1 := by
      apply nearestEven_eq_of_abs_lt
      rw [abs_of_nonneg (sub_nonneg.mpr (le_max_right ..)), sub_lt_iff_lt_add, max_lt_iff]
      push_cast
      constructor <;> linarith
    have := nearestEven_monotone (le_max_left q (n - 1 : ℤ))
    omega

-- Around `q`, numbers with 53 bits are the multiples of two to this exponent.
def gridExponent (q : ℚ) : ℤ :=
  max (Int.log 2 |q| - 52) (-1074)

theorem gridExponent_neg (q : ℚ) : gridExponent (-q) = gridExponent q := by
  simp [gridExponent]

theorem gridExponent_mono {p q : ℚ} (hp : 0 < p) (h : p ≤ q) : gridExponent p ≤ gridExponent q := by
  have hq := hp.trans_le h
  simp only [gridExponent, abs_of_pos hp, abs_of_pos hq]
  have := Int.log_mono_right (b := 2) hp h
  omega

theorem gridExponent_le {q : ℚ} {e : ℤ} (hq : q ≠ 0) (h : |q| < 2 ^ (e + 53)) (he : -1074 ≤ e) :
    gridExponent q ≤ e := by
  have hlog := (Int.lt_zpow_iff_log_lt (R := ℚ) one_lt_two (abs_pos.mpr hq)).mp h
  simp only [gridExponent]
  omega

-- Rounds as if exponents had no upper bound.
def onGrid (q : ℚ) : ℚ :=
  nearestEven (q / 2 ^ gridExponent q) * 2 ^ gridExponent q

@[simp] theorem onGrid_zero : onGrid 0 = 0 := by
  have : nearestEven 0 = 0 := nearestEven_intCast 0
  simp [onGrid, this]

theorem onGrid_neg (q : ℚ) : onGrid (-q) = -onGrid q := by
  simp [onGrid, gridExponent_neg, neg_div, nearestEven_neg]

-- A multiple of a larger power of two lies on the grid.
theorem nearestEven_mul_grid {n e g : ℤ} (h : g ≤ e) :
    (nearestEven (n * 2 ^ e / 2 ^ g) : ℚ) * 2 ^ g = n * 2 ^ e := by
  have hn : (n * 2 ^ e / 2 ^ g : ℚ) = (n * 2 ^ (e - g).toNat : ℤ) := by
    rw [div_eq_iff (by positivity)]
    push_cast
    rw [mul_assoc, ← zpow_natCast, ← zpow_add₀ two_ne_zero, Int.toNat_of_nonneg (by omega)]
    ring_nf
  rw [hn, nearestEven_intCast, ← hn]
  exact div_mul_cancel₀ _ (by positivity)

theorem onGrid_eq_self {q : ℚ} {n e : ℤ} (h : q = n * 2 ^ e) (he : gridExponent q ≤ e) :
    onGrid q = q := by
  rw [onGrid]
  conv_lhs => enter [1, 1, 1, 1]; rw [h]
  rw [nearestEven_mul_grid he, h]

-- Whatever lies on the grid around `q` bounds the rounded number if it bounds `q`.
theorem onGrid_le {q : ℚ} {n e : ℤ} (he : gridExponent q ≤ e) (h : q ≤ n * 2 ^ e) :
    onGrid q ≤ n * 2 ^ e := by
  rw [onGrid, ← nearestEven_mul_grid he]
  have := nearestEven_monotone
    (div_le_div_of_nonneg_right h (by positivity : (0 : ℚ) ≤ 2 ^ gridExponent q))
  gcongr

theorem le_onGrid {q : ℚ} {n e : ℤ} (he : gridExponent q ≤ e) (h : n * 2 ^ e ≤ q) :
    n * 2 ^ e ≤ onGrid q := by
  rw [onGrid, ← nearestEven_mul_grid he]
  have := nearestEven_monotone
    (div_le_div_of_nonneg_right h (by positivity : (0 : ℚ) ≤ 2 ^ gridExponent q))
  gcongr

theorem onGrid_nonneg {q : ℚ} (h : 0 ≤ q) : 0 ≤ onGrid q := by
  simpa using le_onGrid (n := 0) le_rfl (by simpa using h)

-- Less than half of the least number.
theorem onGrid_eq_zero {q : ℚ} (h : 0 ≤ q) (hlt : q < 2 ^ (-1075 : ℤ)) : onGrid q = 0 := by
  rcases h.eq_or_lt with rfl | hpos
  · exact onGrid_zero
  have hg : gridExponent q = -1074 := by
    apply le_antisymm _ (le_max_right _ _)
    apply gridExponent_le hpos.ne' _ le_rfl
    rw [abs_of_pos hpos]
    exact hlt.trans (zpow_lt_zpow_right₀ one_lt_two (by norm_num))
  have hn : nearestEven (q / 2 ^ (-1074 : ℤ)) = 0 := by
    apply nearestEven_eq_of_abs_lt
    rw [Int.cast_zero, sub_zero, abs_of_nonneg (by positivity), div_lt_iff₀ (by positivity)]
    calc q
      _ < 2 ^ (-1 + -1074 : ℤ) := hlt
      _ = 1 / 2 * 2 ^ (-1074 : ℤ) := by rw [zpow_add₀ two_ne_zero]; norm_num
  rw [onGrid, hg, hn, Int.cast_zero, zero_mul]

theorem onGrid_le_onGrid_of_pos {p q : ℚ} (hp : 0 < p) (h : p ≤ q) : onGrid p ≤ onGrid q := by
  have hq := hp.trans_le h
  cases (gridExponent_mono hp h).lt_or_eq
  case inl hlt =>
    -- `q` lies beyond a power of two that `p` does not reach
    have hk : gridExponent q = Int.log 2 q - 52 := by
      simp only [gridExponent, abs_of_pos hp, abs_of_pos hq] at *
      omega
    have hpq : Int.log 2 p < Int.log 2 q := by
      simp only [gridExponent, abs_of_pos hp, abs_of_pos hq] at *
      omega
    have h₁ : onGrid p ≤ (1 : ℤ) * 2 ^ Int.log 2 q := by
      apply onGrid_le (by omega)
      have := (Int.lt_zpow_iff_log_lt (R := ℚ) one_lt_two hp).mpr hpq
      simpa using this.le
    have h₂ : (1 : ℤ) * 2 ^ Int.log 2 q ≤ onGrid q := by
      apply le_onGrid (by omega)
      simpa using Int.zpow_log_le_self (R := ℚ) one_lt_two hq
    exact h₁.trans h₂
  case inr heq =>
    rw [onGrid, onGrid, heq]
    have := nearestEven_monotone
      (div_le_div_of_nonneg_right h (by positivity : (0 : ℚ) ≤ 2 ^ gridExponent q))
    gcongr

theorem onGrid_monotone : Monotone onGrid := by
  intro p q h
  cases lt_or_ge 0 p
  case inl hp => exact onGrid_le_onGrid_of_pos hp h
  case inr hp =>
    cases lt_or_ge q 0
    case inl hq =>
      -- the grid is the same on both sides of zero
      have := onGrid_le_onGrid_of_pos (neg_pos.mpr hq) (neg_le_neg h)
      rw [onGrid_neg, onGrid_neg] at this
      exact neg_le_neg_iff.mp this
    case inr hq =>
      have h₁ := onGrid_nonneg (neg_nonneg.mpr hp)
      have h₂ := onGrid_nonneg hq
      rw [onGrid_neg] at h₁
      linarith

-- The first number out of range; infinity stands at it.
def limit : ℚ :=
  2 ^ 1024

def rounded (q : ℚ) : ℚ :=
  max (-limit) (min limit (onGrid q))

theorem limit_pos : 0 < limit := by
  unfold limit
  positivity

theorem rounded_monotone : Monotone rounded := by
  intro p q h
  exact max_le_max le_rfl (min_le_min le_rfl (onGrid_monotone h))

@[simp] theorem rounded_zero : rounded 0 = 0 := by
  simp [rounded, limit_pos.le]

theorem rounded_neg (q : ℚ) : rounded (-q) = -rounded q := by
  have := limit_pos
  simp only [rounded, onGrid_neg, max_def, min_def]
  split_ifs <;> linarith

theorem rounded_nonneg {q : ℚ} (h : 0 ≤ q) : 0 ≤ rounded q := by
  simpa using rounded_monotone h

-- Numbers of the format: multiples of a power of two by at most 53 bits.
structure Representable (q : ℚ) : Prop where
  multiple : ∃ n e : ℤ, q = n * 2 ^ e ∧ |n| ≤ 2 ^ 53 ∧ -1074 ≤ e
  bounded  : |q| ≤ limit

theorem representable_natCast_mul_zpow {n : ℕ} {e : ℤ} (hn : n ≤ 2 ^ 53) (he : -1074 ≤ e)
    (he' : e ≤ 971) : Representable (n * 2 ^ e) where
  multiple := ⟨n, e, by simp, by rw [Nat.abs_cast]; exact_mod_cast hn, he⟩
  bounded  := by
    rw [abs_of_nonneg (by positivity), limit]
    calc (n * 2 ^ e : ℚ)
      _ ≤ 2 ^ (53 : ℤ) * 2 ^ e := by
        gcongr
        exact_mod_cast hn
      _ = 2 ^ (53 + e) := (zpow_add₀ two_ne_zero _ _).symm
      _ ≤ 2 ^ (1024 : ℤ) := zpow_le_zpow_right₀ one_le_two (by omega)

theorem representable_natCast {n : ℕ} (h : n ≤ 2 ^ 53) : Representable n := by
  simpa using representable_natCast_mul_zpow (e := 0) h (by norm_num) (by norm_num)

-- Numbers from one on are far from the least exponent, so that a smaller power of two can be taken out.
theorem Representable.div_two_pow {q : ℚ} {k : ℕ} (h : Representable q) (hq : 1 ≤ q) (hk : k ≤ 1021) :
    Representable (q / 2 ^ k) where
  multiple := by
    obtain ⟨⟨n, e, rfl, hn, he⟩, _⟩ := h
    have hlow : -53 ≤ e := by
      by_contra hlt
      have hn' : (n : ℚ) ≤ 2 ^ 53 := by exact_mod_cast (le_abs_self n).trans hn
      have : (n * 2 ^ e : ℚ) < 1 := by
        calc (n * 2 ^ e : ℚ)
          _ ≤ 2 ^ (53 : ℤ) * 2 ^ e := by gcongr; exact_mod_cast hn'
          _ = 2 ^ (53 + e) := (zpow_add₀ two_ne_zero _ _).symm
          _ < 2 ^ (0 : ℤ) := zpow_lt_zpow_right₀ one_lt_two (by omega)
          _ = 1 := zpow_zero _
      exact this.not_ge hq
    refine ⟨n, e - k, ?_, hn, by omega⟩
    rw [zpow_sub₀ two_ne_zero, zpow_natCast, mul_div_assoc]
  bounded := by
    rw [abs_div, abs_of_pos (by positivity : (0 : ℚ) < 2 ^ k)]
    exact (div_le_self (abs_nonneg q) (one_le_pow₀ one_le_two)).trans h.bounded

theorem onGrid_eq_self_of_lt {q : ℚ} {n e : ℤ} (h : q = n * 2 ^ e) (hn : |n| < 2 ^ 53)
    (he : -1074 ≤ e) : onGrid q = q := by
  by_cases hz : q = 0
  · simp [hz]
  apply onGrid_eq_self h (gridExponent_le hz _ he)
  rw [h, abs_mul, abs_of_pos (by positivity : (0 : ℚ) < 2 ^ e), zpow_add₀ two_ne_zero, mul_comm]
  gcongr
  exact_mod_cast hn

theorem rounded_eq_self {q : ℚ} (h : Representable q) : rounded q = q := by
  obtain ⟨⟨n, e, hq, hn, he⟩, hb⟩ := h
  have hg : onGrid q = q := by
    cases hn.lt_or_eq
    case inl hlt => exact onGrid_eq_self_of_lt hq hlt he
    case inr heq =>
      -- a full power of two needs only one bit
      have ⟨hn, hlt⟩ : n = 2 * (n / 2) ∧ |n / 2| < 2 ^ 53 := by
        rcases eq_or_eq_neg_of_abs_eq heq with rfl | rfl <;> norm_num
      apply onGrid_eq_self_of_lt (n := n / 2) (e := e + 1) _ hlt (by omega)
      rw [hq, zpow_add_one₀ two_ne_zero]
      conv_lhs => rw [hn]
      push_cast
      ring
  have ⟨h₁, h₂⟩ := abs_le.mp hb
  rw [rounded, hg, min_eq_right h₂, max_eq_right h₁]

end ContainerSizing.Binary64
