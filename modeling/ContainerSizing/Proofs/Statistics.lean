import ContainerSizing.Proofs.Binary64.Nearest
import ContainerSizing.Proofs.Binary64.Order
import ContainerSizing.Statistics

namespace ContainerSizing

-- An evaluation that succeeds has succeeded in every step.
theorem bind_eq_ok_iff {ε α β : Type} {x : Except ε α} {f : α → Except ε β} {b : β} :
    x >>= f = .ok b ↔ ∃ a, x = .ok a ∧ f a = .ok b := by
  cases x <;> simp [bind, Except.bind]

theorem eq_ok_of_toOption {ε α : Type} {x : Except ε α} {a : α} (h : x.toOption = some a) :
    x = .ok a := by
  cases x
  case error => cases h
  case ok => exact congrArg Except.ok (Option.some.inj h)

namespace Statistics

open Binary64

variable {xs : List Float} {x y p : Float}

theorem foldl_larger_mem : xs.foldl (fun a b => if rank b < rank a then a else b) x ∈ x :: xs := by
  induction xs generalizing x
  case nil => simp
  case cons y ys hi =>
    rw [List.foldl_cons]
    split
    · exact List.mem_cons.mpr <| (List.mem_cons.mp hi).imp_right (List.mem_cons_of_mem _)
    · exact List.mem_cons_of_mem _ hi

theorem percentile_singleton : percentile p [x] = .ok x := by
  have : nearestRank p 1 = 0 := Nat.lt_one_iff.mp (nearestRank_lt p Nat.one_pos)
  simp [percentile, sort, this]

theorem exists_largest (h : xs ≠ []) : ∃ x, largest xs = .ok x := by
  cases xs
  case nil => exact absurd rfl h
  case cons y ys => exact ⟨_, rfl⟩

theorem mem_of_largest (h : largest xs = .ok x) : x ∈ xs := by
  cases xs
  case nil => cases h
  case cons y ys =>
    injection h with h
    exact h ▸ foldl_larger_mem

theorem mem_of_percentile (h : percentile p xs = .ok x) : x ∈ xs := by
  rw [percentile] at h
  split at h
  case h_1 y hy =>
    injection h with h
    exact h ▸ (sort_perm xs).mem_iff.mp (List.mem_of_getElem? hy)
  case h_2 => cases h

theorem rank_le_foldl_larger :
    ∀ y ∈ x :: xs, rank y ≤ rank (xs.foldl (fun a b => if rank b < rank a then a else b) x) := by
  induction xs generalizing x
  case nil => simp
  case cons z zs hi =>
    intro y hy
    rw [List.foldl_cons]
    have ⟨hx, hz⟩ : rank x ≤ rank (if rank z < rank x then x else z) ∧
        rank z ≤ rank (if rank z < rank x then x else z) := by
      split <;> omega
    have hmost := hi (x := if rank z < rank x then x else z) _ List.mem_cons_self
    rcases List.mem_cons.mp hy with rfl | hy
    case inl => exact hx.trans hmost
    case inr =>
      rcases List.mem_cons.mp hy with rfl | hy
      case inl => exact hz.trans hmost
      case inr => exact hi y (List.mem_cons_of_mem _ hy)

theorem rank_le_of_largest (h : largest xs = .ok x) : ∀ y ∈ xs, rank y ≤ rank x := by
  cases xs
  case nil => cases h
  case cons y ys =>
    injection h with h
    exact h ▸ rank_le_foldl_larger

theorem le_of_largest (hn : ∀ a ∈ xs, IsNumber a) (h : largest xs = .ok x) : ∀ a ∈ xs, a ≤ x := by
  intro a ha
  have hx := mem_of_largest h
  exact (le_iff_value_le (hn a ha) (hn x hx)).mpr <|
    value_le_of_rank_le (hn a ha) (hn x hx) (rank_le_of_largest h a ha)

theorem largest_le_iff (hn : ∀ a ∈ xs, IsNumber a) (h : largest xs = .ok x) :
    x ≤ y ↔ ∀ a ∈ xs, a ≤ y :=
  ⟨fun hle a ha => Binary64.le_trans (le_of_largest hn h a ha) hle, fun hall => hall x (mem_of_largest h)⟩

theorem largest_lt_iff (hn : ∀ a ∈ xs, IsNumber a) (h : largest xs = .ok x) :
    x < y ↔ ∀ a ∈ xs, a < y :=
  ⟨fun hlt a ha => Binary64.lt_of_le_of_lt (le_of_largest hn h a ha) hlt,
    fun hall => hall x (mem_of_largest h)⟩

section Counting

-- In an ordered list, what holds of the smaller of two elements if it holds of the larger one holds
-- up to a certain position, and the number of times it holds tells which.

variable {P : Float → Bool} {ys : List Float} {k : ℕ}

theorem lt_countP_iff (hs : ys.Pairwise fun a b => rank a ≤ rank b)
    (hP : ∀ a ∈ ys, ∀ b ∈ ys, rank a ≤ rank b → P b → P a) (h : ys[k]? = some x) :
    P x ↔ k < ys.countP P := by
  induction ys generalizing k
  case nil => cases h
  case cons y ys hi =>
    have ⟨hy, hs⟩ := List.pairwise_cons.mp hs
    have hi {k : ℕ} (h : ys[k]? = some x) : P x ↔ k < ys.countP P :=
      hi hs (fun a ha b hb => hP a (List.mem_cons_of_mem _ ha) b (List.mem_cons_of_mem _ hb)) h
    by_cases hp : P y
    case pos =>
      rw [List.countP_cons_of_pos hp]
      cases k
      case zero =>
        injection h with h
        exact iff_of_true (h ▸ hp) (Nat.succ_pos _)
      case succ k => rw [hi h, Nat.succ_lt_succ_iff]
    case neg =>
      have hnone : ∀ z ∈ y :: ys, ¬P z := by
        intro z hz hpz
        rcases List.mem_cons.mp hz with rfl | hz'
        · exact hp hpz
        · exact hp (hP y List.mem_cons_self z hz (hy z hz') hpz)
      rw [List.countP_eq_zero.mpr hnone]
      exact iff_of_false (hnone x (List.mem_of_getElem? h)) (Nat.not_lt_zero k)

theorem percentile_iff (h : percentile p xs = .ok x)
    (hP : ∀ a ∈ xs, ∀ b ∈ xs, rank a ≤ rank b → P b → P a) :
    P x ↔ nearestRank p xs.length < xs.countP P := by
  rw [percentile] at h
  split at h
  case h_1 y hy =>
    injection h with h
    subst h
    have hm {a : Float} (ha : a ∈ sort xs) : a ∈ xs := (sort_perm xs).mem_iff.mp ha
    rw [← (sort_perm xs).countP_eq]
    exact lt_countP_iff (sort_pairwise xs) (fun a ha b hb => hP a (hm ha) b (hm hb)) hy
  case h_2 => cases h

-- A percentile is within a bound if so many values are that its position is one of theirs.
theorem percentile_le_iff (hn : ∀ a ∈ xs, IsNumber a) (h : percentile p xs = .ok x) :
    x ≤ y ↔ nearestRank p xs.length < xs.countP (· ≤ y) := by
  rw [← percentile_iff (P := (· ≤ y)) h, decide_eq_true_iff]
  intro a ha b hb hr hle
  have hab := (le_iff_value_le (hn a ha) (hn b hb)).mpr (value_le_of_rank_le (hn a ha) (hn b hb) hr)
  exact decide_eq_true (Binary64.le_trans hab (of_decide_eq_true hle))

-- As many values as come from its position on are no smaller than a percentile.
theorem sub_nearestRank_le_countP (hn : ∀ a ∈ xs, IsNumber a) (h : percentile p xs = .ok x) :
    xs.length - nearestRank p xs.length ≤ xs.countP (x ≤ ·) := by
  have hx := hn x (mem_of_percentile h)
  have hbelow : ¬nearestRank p xs.length < xs.countP (· < x) := by
    rw [← percentile_iff (P := (· < x)) h, decide_eq_true_iff, lt_iff_value_lt hx hx]
    · exact lt_irrefl _
    · intro a ha b hb hr hlt
      have hab := value_le_of_rank_le (hn a ha) (hn b hb) hr
      have hab := (le_iff_value_le (hn a ha) (hn b hb)).mpr hab
      exact decide_eq_true (Binary64.lt_of_le_of_lt hab (of_decide_eq_true hlt))
  have hsplit := xs.length_eq_countP_add_countP (· < x)
  have hrest : xs.countP (fun a => ¬decide (a < x)) = xs.countP (x ≤ ·) := by
    apply List.countP_congr
    intro a ha
    simp [Binary64.not_lt (hn a ha) hx]
  rw [← hrest]
  omega

theorem countP_le_of_forall₂ (h : List.Forall₂ (fun a b => P b → P a) xs ys) :
    ys.countP P ≤ xs.countP P := by
  induction h
  case nil => exact le_rfl
  case cons a b xs ys hab _ hi =>
    by_cases hb : P b
    case pos =>
      rw [List.countP_cons_of_pos hb, List.countP_cons_of_pos (hab hb)]
      exact Nat.succ_le_succ hi
    case neg =>
      rw [List.countP_cons_of_neg hb]
      exact hi.trans (List.sublist_cons_self a xs).countP_le

-- Raising values, each in its place, does not lower a percentile.
theorem percentile_mono (hn : ∀ a ∈ xs, IsNumber a) (hn' : ∀ b ∈ ys, IsNumber b)
    (h : List.Forall₂ (· ≤ ·) xs ys) (hx : percentile p xs = .ok x) (hy : percentile p ys = .ok y) :
    x ≤ y := by
  have hrank := (percentile_le_iff hn' hy).mp (Binary64.le_refl (hn' y (mem_of_percentile hy)))
  rw [percentile_le_iff hn hx, h.length_eq]
  apply hrank.trans_le
  apply countP_le_of_forall₂
  exact h.imp fun a b hab hb => decide_eq_true (Binary64.le_trans hab (of_decide_eq_true hb))

theorem nearestRank_lt_countP {α : Type} {es : List α} {P : α → Bool} (hne : es ≠ [])
    (h : ∀ e ∈ es, P e) : nearestRank p es.length < es.countP P := by
  rw [List.countP_eq_length.mpr h]
  exact nearestRank_lt p (List.length_pos_iff.mpr hne)

-- A percentile is finite if so many values are that its position is one of theirs.
theorem isFinite_percentile_iff (hn : ∀ a ∈ xs, IsNonneg a) (h : percentile p xs = .ok x) :
    x.isFinite ↔ nearestRank p xs.length < xs.countP Float.isFinite := by
  refine percentile_iff h fun a ha b hb hr hf => ?_
  exact (hn a ha).isFinite_of_le hf (value_le_of_rank_le (hn a ha).isNumber (hn b hb).isNumber hr)

end Counting

-- The value of a list that no other one outranks.
structure IsHighest (xs : List Float) (x : Float) : Prop where
  mem     : x ∈ xs
  rank_le : ∀ y ∈ xs, rank y ≤ rank x

theorem isHighest_of_largest (h : largest xs = .ok x) : IsHighest xs x :=
  ⟨mem_of_largest h, rank_le_of_largest h⟩

-- The hundredth percentile of a list is its maximum, as long as a float can count the list.

theorem nearestRank_hundred {count : ℕ} (h : 0 < count) (hn : count ≤ 2 ^ 53) :
    nearestRank 100.0 count = count - 1 := by
  have hlt : count - 1 < 2 ^ 53 := by omega
  have ⟨hf, hv⟩ := isFinite_and_value_ofNat hlt
  have hone : (100.0 / 100.0 : Float) = 1.0 := by decide +kernel
  have hm : value (1.0 * Float.ofNat (count - 1)) = (count - 1 : ℕ) := by
    rw [value_mul rfl hf, value_one, one_mul, ← hv]
    exact rounded_eq_self (representable_value _)
  have hr := toNearest?_of_value_eq (isNumber_mul (x := 1.0) rfl hf) hm hlt.le
  rw [nearestRank, hone, toNearestNat, hr]
  simp

theorem isHighest_of_percentile (h : percentile 100.0 xs = .ok x) (hn : xs.length ≤ 2 ^ 53) :
    IsHighest xs x := by
  refine ⟨mem_of_percentile h, ?_⟩
  intro y hy
  by_contra hlt
  have hpos := List.length_pos_of_mem hy
  have hall := (percentile_iff (P := fun a => rank a < rank y) h fun a _ b _ hab hb =>
    decide_eq_true (hab.trans_lt (of_decide_eq_true hb))).mp (decide_eq_true (not_le.mp hlt))
  rw [nearestRank_hundred hpos hn] at hall
  have hle := List.countP_le_length (p := fun a => rank a < rank y) (l := xs)
  have hcount : xs.countP (fun a => rank a < rank y) = xs.length := by omega
  simpa using List.countP_eq_length.mp hcount y hy

theorem IsHighest.value_le {ys : List Float} (hx : IsHighest xs x) (hy : IsHighest ys y) (h : xs ⊆ ys)
    (hn : ∀ a ∈ ys, IsNumber a) : value x ≤ value y :=
  value_le_of_rank_le (hn x (h hx.mem)) (hn y hy.mem) (hy.rank_le x (h hx.mem))

-- No product of two values is out of range unless that of the maxima is. Zero times infinity is no
-- number, so only products above zero are compared.
theorem isFinite_largest_mul_iff {ys : List Float} (hx : ∀ a ∈ xs, IsNonneg a)
    (hy : ∀ b ∈ ys, IsNonneg b) (h : largest xs = .ok x) (h' : largest ys = .ok y) :
    (x * y > 0.0 → (x * y).isFinite) ↔ ∀ a ∈ xs, ∀ b ∈ ys, a * b > 0.0 → (a * b).isFinite := by
  constructor
  case mp =>
    intro hf a ha b hb hp
    have hn := IsNonneg.of_pos hp
    have hle := value_le_of_rank_le (hx a ha).isNumber (hx x (mem_of_largest h)).isNumber
      (rank_le_of_largest h a ha)
    have hle' := value_le_of_rank_le (hy b hb).isNumber (hy y (mem_of_largest h')).isNumber
      (rank_le_of_largest h' b hb)
    have hnx := hx x (mem_of_largest h)
    have hny := hy y (mem_of_largest h')
    have hpos := (pos_iff_value_pos hn.isNumber).mp hp
    have ⟨hpa, hpb⟩ := (hx a ha).pos_of_mul_pos (hy b hb) hpos
    have hnumber := hnx.isNumber_mul hny (hpa.trans_le hle) (hpb.trans_le hle')
    have hmul := (hx a ha).value_mul_le_mul (hy b hb) hnx hny hle hle' hnumber
    exact hn.isFinite_of_le (hf ((pos_iff_value_pos hnumber).mpr (hpos.trans_le hmul))) hmul
  case mpr => exact fun hf => hf x (mem_of_largest h) y (mem_of_largest h')

end Statistics

end ContainerSizing
