import ContainerSizing.Policy
import ContainerSizing.Proofs.Binary64.Order

namespace ContainerSizing

open Binary64

namespace Term

variable {earlier : List Term} {t : Term} {e : ConfigurationError}

-- A term that can follow `earlier` ones.
structure IsSound (earlier : List Term) (t : Term) : Prop where
  label : t.label ∉ earlier.map Term.label
  days  : 1 ≤ t.days
  bound : IsNumber t.leastMinutes ∧ t.leastMinutes > 0.0

-- What is wrong with a term behind `earlier` ones. A label that is there already counts before the
-- days, and these before the bound.
inductive IsFaulty (earlier : List Term) (t : Term) : ConfigurationError → Prop
  | label (hl : t.label ∈ earlier.map Term.label) : IsFaulty earlier t (.duplicateLabel t.label)
  | days (hl : t.label ∉ earlier.map Term.label) (hd : t.days = 0) :
      IsFaulty earlier t (.zeroDuration t.label)
  | bound (hl : t.label ∉ earlier.map Term.label) (hd : t.days ≠ 0)
      (hb : ¬IsNumber t.leastMinutes ∨ t.leastMinutes ≤ 0.0) :
      IsFaulty earlier t (.nonPositiveBound t.label t.leastMinutes)

theorem one_le_days_iff : 1 ≤ t.days ↔ t.days ≠ 0 := by
  rw [UInt32.le_iff_toNat_le, ne_eq, ← UInt32.toNat_inj]
  exact Nat.one_le_iff_ne_zero

theorem not_bound_iff : ¬t.leastMinutes > 0.0 ↔ ¬IsNumber t.leastMinutes ∨ t.leastMinutes ≤ 0.0 := by
  by_cases hn : IsNumber t.leastMinutes
  case pos => rw [not_pos_iff_le_zero hn, or_iff_right (not_not.mpr hn)]
  case neg => exact iff_of_true (fun h => hn (isNumber_of_lt h).right) (.inl hn)

theorem IsFaulty.not_isSound (h : t.IsFaulty earlier e) : ¬t.IsSound earlier := by
  intro hs
  cases h
  case label hl => exact hs.label hl
  case days hd => exact one_le_days_iff.mp hs.days hd
  case bound hb => exact not_bound_iff.mpr hb hs.bound.right

theorem isSound_or_isFaulty (earlier : List Term) (t : Term) :
    t.IsSound earlier ∨ ∃ e, t.IsFaulty earlier e := by
  by_cases hl : t.label ∈ earlier.map Term.label
  case pos => exact .inr ⟨_, .label hl⟩
  case neg =>
    by_cases hd : t.days = 0
    case pos => exact .inr ⟨_, .days hl hd⟩
    case neg =>
      by_cases hb : t.leastMinutes > 0.0
      case pos => exact .inl ⟨hl, one_le_days_iff.mpr hd, (isNumber_of_lt hb).right, hb⟩
      case neg => exact .inr ⟨_, .bound hl hd (not_bound_iff.mp hb)⟩

end Term

namespace Policy

variable {p : Policy} {earlier terms ts : List Term} {t : Term} {seen : List String}
variable {e : ConfigurationError}

def labels (p : Policy) : List String :=
  p.terms.map Term.label

def HasDistinctLabels (p : Policy) : Prop :=
  p.labels.Nodup

-- Terms of which none repeats a label or breaks a rule.
structure AreUsable (terms : List Term) : Prop where
  labels : (terms.map Term.label).Nodup
  days   : ∀ t ∈ terms, 1 ≤ t.days
  bounds : ∀ t ∈ terms, IsNumber t.leastMinutes ∧ t.leastMinutes > 0.0

theorem areUsable_nil : AreUsable [] :=
  ⟨List.nodup_nil, nofun, nofun⟩

theorem areUsable_append_singleton_iff :
    AreUsable (earlier ++ [t]) ↔ AreUsable earlier ∧ t.IsSound earlier := by
  have hlabels : ((earlier ++ [t]).map Term.label).Nodup ↔
      (earlier.map Term.label).Nodup ∧ t.label ∉ earlier.map Term.label := by
    rw [List.map_append, List.map_singleton, ← List.concat_eq_append, List.nodup_concat, and_comm]
  constructor
  case mp =>
    rintro ⟨hl, hd, hb⟩
    have ⟨hl, ht⟩ := hlabels.mp hl
    simp only [List.forall_mem_append, List.forall_mem_singleton] at hd hb
    exact ⟨⟨hl, hd.left, hb.left⟩, ht, hd.right, hb.right⟩
  case mpr =>
    rintro ⟨⟨hl, hd, hb⟩, ht⟩
    refine ⟨hlabels.mpr ⟨hl, ht.label⟩, ?_, ?_⟩ <;>
      simp only [List.forall_mem_append, List.forall_mem_singleton]
    · exact ⟨hd, ht.days⟩
    · exact ⟨hb, ht.bound⟩

theorem AreUsable.of_append (h : AreUsable (earlier ++ ts)) : AreUsable earlier where
  labels := (List.map_append ▸ h.labels).of_append_left
  days t ht := h.days t (List.mem_append_left _ ht)
  bounds t ht := h.bounds t (List.mem_append_left _ ht)

-- What follows a term does not excuse it.
theorem AreUsable.isSound (h : AreUsable (earlier ++ t :: ts)) : t.IsSound earlier := by
  rw [List.append_cons] at h
  exact (areUsable_append_singleton_iff.mp h.of_append).right

-- The check goes on behind a sound term and ends at a faulty one. It remembers labels only.

section Check

variable (hs : ∀ label, label ∈ seen ↔ label ∈ earlier.map Term.label)
include hs

theorem termsFault?_of_isSound (h : t.IsSound earlier) :
    termsFault? seen (t :: ts) = termsFault? (t.label :: seen) ts := by
  have hf : t.fault? = none := by
    rw [Term.fault?, if_neg (Term.one_le_days_iff.mp h.days)]
    exact if_pos h.bound.right
  rw [termsFault?, if_neg (mt (hs _).mp h.label), hf]

theorem termsFault?_of_isFaulty (h : t.IsFaulty earlier e) : termsFault? seen (t :: ts) = some e := by
  cases h
  case label hl => rw [termsFault?, if_pos ((hs _).mpr hl)]
  case days hl hd => rw [termsFault?, if_neg (mt (hs _).mp hl), Term.fault?, if_pos hd]
  case bound hl hd hb =>
    have hf : t.fault? = some (.nonPositiveBound t.label t.leastMinutes) := by
      rw [Term.fault?, if_neg hd]
      exact if_neg (Term.not_bound_iff.mpr hb)
    rw [termsFault?, if_neg (mt (hs _).mp hl), hf]

theorem mem_cons_iff (label : String) :
    label ∈ t.label :: seen ↔ label ∈ (earlier ++ [t]).map Term.label := by
  rw [List.mem_cons, hs, List.map_append, List.mem_append, List.map_singleton, List.mem_singleton,
    or_comm]

variable (hu : AreUsable earlier)
include hu

theorem termsFault?_eq_none_iff : termsFault? seen terms = none ↔ AreUsable (earlier ++ terms) := by
  induction terms generalizing seen earlier
  case nil => simpa [termsFault?] using hu
  case cons t ts hi =>
    rcases t.isSound_or_isFaulty earlier with h | ⟨e, h⟩
    case inl =>
      rw [termsFault?_of_isSound hs h, List.append_cons]
      exact hi (mem_cons_iff hs) (areUsable_append_singleton_iff.mpr ⟨hu, h⟩)
    case inr =>
      rw [termsFault?_of_isFaulty hs h]
      exact iff_of_false nofun fun hu => h.not_isSound hu.isSound

end Check

theorem mem_nil_iff (label : String) : label ∈ [] ↔ label ∈ ([] : List Term).map Term.label :=
  Iff.rfl

structure IsUsable (p : Policy) : Prop where
  nonempty : p.terms ≠ []
  terms    : AreUsable p.terms

theorem fault?_eq_none_iff : p.fault? = none ↔ p.IsUsable := by
  rw [fault?]
  split
  case isTrue h => exact iff_of_false nofun fun hu => hu.nonempty (List.isEmpty_iff.mp h)
  case isFalse h =>
    rw [termsFault?_eq_none_iff mem_nil_iff areUsable_nil]
    exact ⟨fun hu => ⟨mt List.isEmpty_iff.mpr h, hu⟩, IsUsable.terms⟩

theorem hasDistinctLabels_of_fault? (h : p.fault? = none) : p.HasDistinctLabels :=
  (fault?_eq_none_iff.mp h).terms.labels

theorem bound_pos_of_fault? (h : p.fault? = none) :
    p.terms ≠ [] ∧ ∀ t ∈ p.terms, t.leastMinutes > 0.0 :=
  have hu := fault?_eq_none_iff.mp h
  ⟨hu.nonempty, fun t ht => (hu.terms.bounds t ht).right⟩

-- A policy without terms is blamed as a whole, any other one for its first term that is not sound.
inductive IsFaulty (p : Policy) : ConfigurationError → Prop
  | empty (h : p.terms = []) : IsFaulty p .emptyPolicy
  | term {before after : List Term} {t : Term} {e : ConfigurationError}
      (h : p.terms = before ++ t :: after) (hb : AreUsable before) (ht : t.IsFaulty before e) :
      IsFaulty p e

section Least

variable {b x y : Float} {bs : List Float}

theorem lesser_spec (hx : IsNumber x) (hy : IsNumber y) :
    let least := if x > y then y else x
    (least = x ∨ least = y) ∧ least ≤ x ∧ least ≤ y := by
  have hlt := lt_iff_value_lt hy hx
  have hle {u v : Float} (hu : IsNumber u) (hv : IsNumber v) := le_iff_value_le hu hv
  by_cases h : x > y
  case pos =>
    simp only [if_pos h]
    exact ⟨.inr trivial, (hle hy hx).mpr (hlt.mp h).le, (hle hy hy).mpr le_rfl⟩
  case neg =>
    simp only [if_neg h]
    exact ⟨.inl trivial, (hle hx hx).mpr le_rfl, (hle hx hy).mpr (not_lt.mp (mt hlt.mpr h))⟩

-- The least of several numbers is one of them, and not above any of them.
theorem foldl_lesser_spec (hb : ∀ x ∈ b :: bs, IsNumber x) :
    (bs.foldl (fun least b => if least > b then b else least) b) ∈ b :: bs ∧
      ∀ x ∈ b :: bs, bs.foldl (fun least b => if least > b then b else least) b ≤ x := by
  induction bs generalizing b
  case nil =>
    have hb := hb b List.mem_cons_self
    simpa using Binary64.le_refl hb
  case cons y ys hi =>
    have hy := hb y (List.mem_cons_of_mem _ List.mem_cons_self)
    have ⟨hor, hlb, hly⟩ := lesser_spec (hb b List.mem_cons_self) hy
    have ⟨hmem, hle⟩ := hi (b := if b > y then y else b) fun x hx => by
      rcases List.mem_cons.mp hx with rfl | hx
      · exact (isNumber_of_le hlb).left
      · exact hb x (List.mem_cons_of_mem _ (List.mem_cons_of_mem _ hx))
    have hleast := hle _ List.mem_cons_self
    rw [List.foldl_cons]
    constructor
    case left =>
      rcases List.mem_cons.mp hmem with h | h
      · rw [h]
        rcases hor with h | h <;> simp [h]
      · exact List.mem_cons_of_mem _ (List.mem_cons_of_mem _ h)
    case right =>
      intro x hx
      rcases List.mem_cons.mp hx with rfl | hx
      · exact Binary64.le_trans hleast hlb
      · rcases List.mem_cons.mp hx with rfl | hx
        · exact Binary64.le_trans hleast hly
        · exact hle x (List.mem_cons_of_mem _ hx)

end Least

-- A checked policy has a least bound: that of some term, above zero and not above that of any term.
theorem exists_leastBound (h : p.fault? = none) :
    ∃ least, p.leastBound? = some least ∧ least > 0.0 ∧ (∃ t ∈ p.terms, t.leastMinutes = least) ∧
      ∀ t ∈ p.terms, least ≤ t.leastMinutes := by
  have ⟨hne, hpos⟩ := bound_pos_of_fault? h
  cases hb : p.terms.map Term.leastMinutes
  case nil => exact absurd (List.map_eq_nil_iff.mp hb) hne
  case cons b bs =>
    have hmem {x : Float} : x ∈ b :: bs ↔ ∃ t ∈ p.terms, t.leastMinutes = x := by
      rw [← hb, List.mem_map]
    have hn : ∀ x ∈ b :: bs, IsNumber x := by
      intro x hx
      obtain ⟨t, ht, rfl⟩ := hmem.mp hx
      exact (isNumber_of_lt (hpos t ht)).right
    have ⟨hm, hle⟩ := foldl_lesser_spec hn
    obtain ⟨t, ht, heq⟩ := hmem.mp hm
    refine ⟨_, by rw [leastBound?, hb], heq ▸ hpos t ht, ⟨t, ht, heq⟩, ?_⟩
    exact fun t ht => hle _ (hmem.mpr ⟨t, ht, rfl⟩)

end Policy

end ContainerSizing
