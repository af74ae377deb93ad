import ContainerSizing.Proofs.Binary64.Finite
import ContainerSizing.Proofs.Binary64.Identity
import ContainerSizing.Proofs.Statistics

namespace ContainerSizing.Statistics

open Binary64

variable {xs ys : List Float} {x y p q : Float} {count : ℕ}

section Sorting

-- No two numbers share a position in the total order, so there is only one way to sort them.
theorem sort_eq_of_perm (h : xs.Perm ys) : sort xs = sort ys := by
  have hs : (sort xs).Perm (sort ys) := (sort_perm xs).trans (h.trans (sort_perm ys).symm)
  exact hs.eq_of_pairwise (fun _ _ _ _ hab hba => rank_injective (hab.antisymm hba))
    (sort_pairwise xs) (sort_pairwise ys)

theorem percentile_perm (p : Float) (h : xs.Perm ys) : percentile p xs = percentile p ys := by
  rw [percentile, percentile, sort_eq_of_perm h, h.length_eq]

theorem percentile_eq_ok_iff :
    percentile p xs = .ok x ↔ (sort xs)[nearestRank p xs.length]? = some x := by
  rw [percentile]
  cases (sort xs)[nearestRank p xs.length]? <;> simp

theorem percentile_nil : percentile p [] = .error .noValues := by
  simp [percentile, sort]

theorem percentile_eq_error_iff : (∃ e, percentile p xs = .error e) ↔ xs = [] := by
  constructor
  case mp =>
    intro ⟨e, he⟩
    by_contra hne
    have ⟨x, _, hx⟩ := percentile_ne_error (p := p) hne
    rw [hx] at he
    cases he
  case mpr =>
    rintro rfl
    exact ⟨.noValues, percentile_nil⟩

theorem rank_le_of_nearestRank_le (hx : percentile p xs = .ok x) (hy : percentile q xs = .ok y)
    (h : nearestRank p xs.length ≤ nearestRank q xs.length) : rank x ≤ rank y := by
  rw [percentile_eq_ok_iff, List.getElem?_eq_some_iff] at hx hy
  obtain ⟨hlx, rfl⟩ := hx
  obtain ⟨hly, rfl⟩ := hy
  cases h.lt_or_eq
  case inl hlt => exact List.pairwise_iff_getElem.mp (sort_pairwise xs) _ _ hlx hly hlt
  case inr heq => simp only [heq, le_refl]

end Sorting

-- A value of the list that stands at the position `k` if the list is sorted. Values that are equal to
-- it count on both sides.
structure StandsAt (xs : List Float) (k : ℕ) (x : Float) : Prop where
  mem   : x ∈ xs
  below : k + 1 ≤ xs.countP (· ≤ x)
  above : xs.length - k ≤ xs.countP (x ≤ ·)

theorem standsAt_of_percentile (hn : ∀ a ∈ xs, IsNumber a) (h : percentile p xs = .ok x) :
    StandsAt xs (nearestRank p xs.length) x where
  mem   := mem_of_percentile h
  below := (percentile_le_iff hn h).mp (Binary64.le_refl (hn x (mem_of_percentile h)))
  above := sub_nearestRank_le_countP hn h

section Ranks

-- The rank is a rounded product, held to the positions that there are. A list is never so long that
-- holding it to 64 bits first would make a difference.
theorem nearestRank_eq (p : Float) (h : count ≤ 2 ^ 53) :
    nearestRank p count =
      min (toNearestNat (UInt64.size - 1) (p / 100.0 * Float.ofNat (count - 1))) (count - 1) :=
  toNearestNat_of_le _ (by simp only [UInt64.size]; omega)

theorem isFinite_and_value_hundred : (100.0 : Float).isFinite ∧ value 100.0 = 100 :=
  isFinite_and_value_of_eq (n := 100) (by decide +kernel) (by norm_num)

variable (hp : 0.0 ≤ p) (hpq : p ≤ 100.0)
include hp hpq

-- Between 0 and 100 neither the quotient nor the product runs out of range.

theorem isNonneg_and_isFinite_percentage : IsNonneg p ∧ p.isFinite := by
  have hn := IsNonneg.of_zero_le hp
  exact ⟨hn, hn.isFinite_of_le isFinite_and_value_hundred.left (value_le_of_le hpq)⟩

theorem value_fraction : value (p / 100.0) = rounded (value p / 100) := by
  have ⟨hf, hv⟩ := isFinite_and_value_hundred
  have ⟨_, hpf⟩ := isNonneg_and_isFinite_percentage hp hpq
  rw [value_div hpf hf (by rw [hv]; norm_num), hv]

theorem isUpTo_fraction : IsUpTo 0 (p / 100.0) := by
  have ⟨hf, hv⟩ := isFinite_and_value_hundred
  have ⟨hn, hpf⟩ := isNonneg_and_isFinite_percentage hp hpq
  have hle := value_le_of_le hpq
  rw [hv] at hle
  refine ⟨hn.div hpf ⟨isNumber_of_isFinite hf, by rw [hv]; norm_num⟩ hf (by rw [hv]; norm_num), ?_⟩
  rw [value_fraction hp hpq]
  exact rounded_le_two_pow (by norm_num) (by linarith)

omit hp hpq in
theorem isUpTo_ofNat (h : count < 2 ^ 53) : IsUpTo 53 (Float.ofNat count) := by
  have ⟨hf, hv⟩ := isFinite_and_value_ofNat h
  refine ⟨⟨isNumber_of_isFinite hf, hv ▸ Nat.cast_nonneg _⟩, ?_⟩
  rw [hv]
  exact_mod_cast h.le

theorem isFinite_and_value_product (h : count < 2 ^ 53) :
    (p / 100.0 * Float.ofNat count).isFinite ∧
      value (p / 100.0 * Float.ofNat count) = rounded (rounded (value p / 100) * count) := by
  have hf := isUpTo_fraction hp hpq
  have hc := isUpTo_ofNat h
  refine ⟨(hf.mul hc (by norm_num)).isFinite (by norm_num), ?_⟩
  rw [value_mul (hf.isFinite (by norm_num)) (hc.isFinite (by norm_num)), value_fraction hp hpq,
    (isFinite_and_value_ofNat h).right]

omit hp hpq in
theorem nearestRank_mono (hp : 0.0 ≤ p) (h : p ≤ q) (hq : q ≤ 100.0) (hn : count ≤ 2 ^ 53) :
    nearestRank p count ≤ nearestRank q count := by
  have hlt : count - 1 < 2 ^ 53 := by omega
  have ⟨hpf, hpv⟩ := isFinite_and_value_product hp (Binary64.le_trans h hq) hlt
  have ⟨hqf, hqv⟩ := isFinite_and_value_product (Binary64.le_trans hp h) hq hlt
  refine toNearestNat_mono _ hpf hqf ?_
  rw [hpv, hqv]
  have hle := rounded_monotone (div_le_div_of_nonneg_right (value_le_of_le h) (by norm_num : (0 : ℚ) ≤ 100))
  exact rounded_monotone (mul_le_mul_of_nonneg_right hle (Nat.cast_nonneg _))

omit hp hpq in
theorem nearestRank_zero (hn : count ≤ 2 ^ 53) : nearestRank 0.0 count = 0 := by
  have ⟨hf, hv⟩ := isFinite_and_value_product (Binary64.le_refl isNumber_zero)
    (show 0.0 ≤ 100.0 by decide +kernel) (show count - 1 < 2 ^ 53 by omega)
  have hzero : nearestAway 0 = 0 := nearestAway_intCast 0
  rw [nearestRank, toNearestNat_eq _ hf, hv]
  simp [hzero]

end Ranks

section Ends

-- The first and the last value of the sorted list.

theorem IsHighest.eq (hx : IsHighest xs x) (hy : IsHighest xs y) : x = y :=
  rank_injective ((hy.rank_le x hx.mem).antisymm (hx.rank_le y hy.mem))

theorem percentile_hundred (hn : xs.length ≤ 2 ^ 53) : percentile 100.0 xs = largest xs := by
  cases xs
  case nil => exact percentile_nil
  case cons z zs =>
    have ⟨x, _, hx⟩ := percentile_ne_error (p := 100.0) (List.cons_ne_nil z zs)
    have ⟨y, hy⟩ := exists_largest (List.cons_ne_nil z zs)
    rw [hx, hy, (isHighest_of_percentile hx hn).eq (isHighest_of_largest hy)]

theorem rank_le_of_percentile_zero (hn : xs.length ≤ 2 ^ 53) (h : percentile 0.0 xs = .ok x) :
    ∀ a ∈ xs, rank x ≤ rank a := by
  intro a ha
  have hcount : nearestRank 0.0 xs.length < xs.countP fun b => rank b ≤ rank a := by
    rw [nearestRank_zero hn]
    exact List.countP_pos_iff.mpr ⟨a, ha, decide_eq_true le_rfl⟩
  exact of_decide_eq_true <| (percentile_iff (P := fun b => rank b ≤ rank a) h fun _ _ _ _ hbc hc =>
    decide_eq_true (hbc.trans (of_decide_eq_true hc))).mpr hcount

end Ends

theorem le_of_rank_le (hx : IsNumber x) (hy : IsNumber y) (h : rank x ≤ rank y) : x ≤ y :=
  (le_iff_value_le hx hy).mpr (value_le_of_rank_le hx hy h)

theorem percentile_orderStatistic (hne : xs ≠ []) (hl : xs.length ≤ 2 ^ 53)
    (hn : ∀ a ∈ xs, IsNumber a) :
    (∀ p ys, (∃ e, percentile p ys = .error e) ↔ ys = []) ∧
    (∀ p, nearestRank p xs.length =
          min (toNearestNat (UInt64.size - 1) (p / 100.0 * Float.ofNat (xs.length - 1))) (xs.length - 1) ∧
        nearestRank p xs.length < xs.length ∧
        ∃ x, percentile p xs = .ok x ∧ StandsAt xs (nearestRank p xs.length) x) ∧
    (∀ p ys, xs.Perm ys → percentile p xs = percentile p ys) ∧
    (∀ p q x y, 0.0 ≤ p → p ≤ q → q ≤ 100.0 → percentile p xs = .ok x → percentile q xs = .ok y →
      x ≤ y) ∧
    (∀ p ys x y, List.Forall₂ (· ≤ ·) xs ys → percentile p xs = .ok x → percentile p ys = .ok y →
      x ≤ y) ∧
    percentile 100.0 xs = largest xs ∧
    (∃ x ∈ xs, percentile 0.0 xs = .ok x ∧ ∀ a ∈ xs, rank x ≤ rank a ∧ x ≤ a) := by
  refine ⟨fun p ys => percentile_eq_error_iff, ?position, fun p ys => percentile_perm p, ?percentage,
    ?values, percentile_hundred hl, ?least⟩
  case position =>
    intro p
    have ⟨x, _, hx⟩ := percentile_ne_error (p := p) hne
    exact ⟨nearestRank_eq p hl, nearestRank_lt p (List.length_pos_iff.mpr hne), x, hx,
      standsAt_of_percentile hn hx⟩
  case percentage =>
    intro p q x y hp hpq hq hx hy
    exact le_of_rank_le (hn x (mem_of_percentile hx)) (hn y (mem_of_percentile hy))
      (rank_le_of_nearestRank_le hx hy (nearestRank_mono hp hpq hq hl))
  case values =>
    intro p ys x y h hx hy
    have hn' := (List.forall₂_and_left ys xs).mp <|
      h.flip.imp fun b a hab => ⟨(isNumber_of_le hab).right, hab⟩
    exact percentile_mono hn hn'.left h hx hy
  case least =>
    have ⟨x, hm, hx⟩ := percentile_ne_error (p := 0.0) hne
    have hrank := rank_le_of_percentile_zero hl hx
    exact ⟨x, hm, hx, fun a ha => ⟨hrank a ha, le_of_rank_le (hn x hm) (hn a ha) (hrank a ha)⟩⟩

-- Two values occur twice, if only by their value.
def paired : List Float :=
  [4.0, 0.0, -0.0, 4.0, 1.0]

theorem isNumber_paired : ∀ a ∈ paired, IsNumber a := by
  have h : ∀ a ∈ paired, a.isNaN = false := by decide +kernel
  exact h

theorem percentile_orderStatistic_paired :
    paired ≠ [] ∧ paired.length ≤ 2 ^ 53 ∧ (∀ a ∈ paired, IsNumber a) ∧
    (∃ x, percentile 60.0 paired = .ok x ∧ StandsAt paired 2 x) ∧
    (∃ x, percentile (0.0 / 0.0) paired = .ok x ∧ StandsAt paired 0 x) ∧
    percentile 100.0 paired = .ok 4.0 ∧
    ∃ x ∈ paired, percentile 0.0 paired = .ok x ∧ rank x = rank (-0.0) := by
  have ⟨_, hposition, _, _, _, hmost, x, hm, hx, hleast⟩ :=
    percentile_orderStatistic (show paired ≠ [] by decide) (by decide +kernel) isNumber_paired
  have ⟨_, _, y, hy, hs⟩ := hposition 60.0
  have ⟨_, _, z, hz, hs'⟩ := hposition (0.0 / 0.0)
  have hrank : nearestRank 60.0 paired.length = 2 := by decide +kernel
  have hrank' : nearestRank (0.0 / 0.0) paired.length = 0 := by decide +kernel
  rw [hrank] at hs
  rw [hrank'] at hs'
  have hall : ∀ a ∈ paired, rank (-0.0) ≤ rank a := by decide +kernel
  have hzero : -0.0 ∈ paired := by simp [paired]
  exact ⟨by decide, by decide +kernel, isNumber_paired, ⟨y, hy, hs⟩, ⟨z, hz, hs'⟩, hmost, x, hm, hx,
    (hleast _ hzero).left.antisymm (hall x hm)⟩

end ContainerSizing.Statistics
