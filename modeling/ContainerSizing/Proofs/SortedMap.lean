import ContainerSizing.SortedMap
import Mathlib.Data.List.Nodup
import Mathlib.Data.List.Perm.Basic
import Mathlib.Tactic

namespace ContainerSizing.SortedMap

variable {κ : Type u} {ν : Type v} [Ord κ] {m n : SortedMap κ ν} {es : List (κ × ν)} {k k' : κ} {v : ν}

@[simp] theorem get?_empty : (∅ : SortedMap κ ν).get? k = none :=
  rfl

variable [Std.LawfulEqOrd κ]

theorem find?_insertEntry_self : (insertEntry k v es).find? (compare k ·.1 == .eq) = some (k, v) := by
  induction es
  case nil => simp [insertEntry]
  case cons e es hi =>
    rw [insertEntry]
    split
    case h_1 | h_2 => simp
    case h_3 h => simp [h, hi]

theorem find?_insertEntry_of_ne (h : k' ≠ k) :
    (insertEntry k v es).find? (compare k' ·.1 == .eq) = es.find? (compare k' ·.1 == .eq) := by
  induction es
  case nil => simp [insertEntry, h]
  case cons e es hi =>
    rw [insertEntry]
    split
    case h_1 => simp [h]
    case h_2 he =>
      have he := Std.LawfulEqOrd.eq_of_compare he
      simp [← he, h]
    case h_3 => simp only [List.find?_cons, hi]

-- Nothing makes room for an entry with a key of its own.
theorem sublist_insertEntry (h : ∀ e ∈ es, k ≠ e.1) : es.Sublist (insertEntry k v es) := by
  induction es
  case nil => exact List.nil_sublist _
  case cons e es hi =>
    have ⟨he, hes⟩ := List.forall_mem_cons.mp h
    rw [insertEntry]
    split
    case h_1 => exact List.sublist_cons_self ..
    case h_2 hk => exact absurd (Std.LawfulEqOrd.eq_of_compare hk) he
    case h_3 => exact (hi hes).cons_cons e

-- A sorted list has no two entries under one key, so the first one found is the only one.
theorem mem_entries_iff : (k, v) ∈ m.entries ↔ m.get? k = some v := by
  obtain ⟨es, hs⟩ := m
  simp only [get?]
  induction es
  case nil => simp
  case cons e es hi =>
    have ⟨he, hs⟩ := List.pairwise_cons.mp hs
    by_cases hk : k = e.1
    case pos =>
      have hv : (e.1, v) ∉ es := by
        intro h
        have := he _ h
        simp at this
      simp [hv, hk, Prod.ext_iff, eq_comm]
    case neg =>
      have hne : (k, v) ≠ e := fun h => hk (congrArg Prod.fst h)
      simp [hne, hk, hi hs]

theorem mem_keys_iff : k ∈ m.keys ↔ ∃ v, m.get? k = some v := by
  simp [keys, ← mem_entries_iff]

theorem nodup_keys : m.keys.Nodup := by
  rw [keys, List.Nodup, List.pairwise_map]
  apply m.sorted.imp
  intro a b h he
  simp [he] at h

variable [Std.TransOrd κ]

theorem get?_insert_self : (m.insert k v).get? k = some v := by
  simp [get?, find?_insertEntry_self]

theorem get?_insert_of_ne (h : k' ≠ k) : (m.insert k v).get? k' = m.get? k' := by
  simp [get?, find?_insertEntry_of_ne h]

theorem sublist_entries_insert (h : m.get? k = none) : m.entries.Sublist (m.insert k v).entries := by
  apply sublist_insertEntry
  rintro ⟨k', v'⟩ he rfl
  rw [mem_entries_iff, h] at he
  cases he

-- Entries in order are known by their members.
theorem eq_of_mem_iff {es' : List (κ × ν)} (hs : es.Pairwise fun a b => compare a.1 b.1 = .lt)
    (hs' : es'.Pairwise fun a b => compare a.1 b.1 = .lt) (h : ∀ e, e ∈ es ↔ e ∈ es') : es = es' := by
  have nodup {es : List (κ × ν)} (hs : es.Pairwise fun a b => compare a.1 b.1 = .lt) : es.Nodup := by
    apply hs.imp
    intro a b h he
    simp [he] at h
  apply List.Perm.eq_of_pairwise _ hs hs' ((List.perm_ext_iff_of_nodup (nodup hs) (nodup hs')).mpr h)
  intro a b _ _ hab hba
  have := Std.TransCmp.lt_trans hab hba
  simp at this

theorem ext_get? (h : ∀ k, m.get? k = n.get? k) : m = n := by
  apply ext_entries
  apply eq_of_mem_iff m.sorted n.sorted
  intro ⟨k, v⟩
  rw [mem_entries_iff, mem_entries_iff, h]

theorem filter_entries_congr {p : κ → Bool} (h : ∀ k, p k → m.get? k = n.get? k) :
    m.entries.filter (p ·.1) = n.entries.filter (p ·.1) := by
  apply eq_of_mem_iff (m.sorted.filter _) (n.sorted.filter _)
  intro ⟨k, v⟩
  rw [List.mem_filter, List.mem_filter]
  apply and_congr_left
  intro hk
  rw [mem_entries_iff, mem_entries_iff, h k hk]

section Inserting

theorem get?_foldl_insert_of_notMem (h : k ∉ es.map (·.1)) :
    (es.foldl (fun m e => m.insert e.1 e.2) m).get? k = m.get? k := by
  induction es generalizing m
  case nil => rfl
  case cons e es hi =>
    simp only [List.map_cons, List.mem_cons, not_or] at h
    rw [List.foldl_cons, hi h.2, get?_insert_of_ne h.1]

theorem get?_foldl_insert_of_mem (hd : (es.map (·.1)).Nodup) (h : (k, v) ∈ es) :
    (es.foldl (fun m e => m.insert e.1 e.2) m).get? k = some v := by
  induction es generalizing m
  case nil => cases h
  case cons e es hi =>
    have ⟨he, hd⟩ := List.nodup_cons.mp hd
    rw [List.foldl_cons]
    rcases List.mem_cons.mp h with rfl | h
    case inl => rw [get?_foldl_insert_of_notMem he, get?_insert_self]
    case inr => exact hi hd h

-- The last entry for a key stays.
theorem get?_ofList :
    (ofList es).get? k = (es.reverse.find? fun e => compare k e.1 == .eq).map (·.2) := by
  induction es using List.reverseRecOn
  case nil => rfl
  case append_singleton es e hi =>
    have ho : ofList (es ++ [e]) = (ofList es).insert e.1 e.2 := by
      simp [ofList, List.foldl_append]
    rw [ho, List.reverse_append, List.reverse_singleton, List.singleton_append]
    by_cases hk : k = e.1
    case pos =>
      subst hk
      rw [get?_insert_self, List.find?_cons_of_pos (by simp), Option.map_some]
    case neg => rw [get?_insert_of_ne hk, List.find?_cons_of_neg (by simp [hk]), hi]

theorem mem_of_get?_ofList (h : (ofList es).get? k = some v) : (k, v) ∈ es := by
  rw [get?_ofList] at h
  obtain ⟨⟨k', v⟩, hf, rfl⟩ := Option.map_eq_some_iff.mp h
  obtain rfl : k = k' := by simpa using List.find?_some hf
  exact List.mem_reverse.mp (List.mem_of_find?_eq_some hf)

theorem get?_ofList_eq_some_iff (hd : (es.map (·.1)).Nodup) :
    (ofList es).get? k = some v ↔ (k, v) ∈ es := by
  constructor
  case mpr => exact get?_foldl_insert_of_mem hd
  case mp =>
    intro h
    by_cases hk : k ∈ es.map (·.1)
    case neg =>
      have := h ▸ get?_foldl_insert_of_notMem (m := ∅) hk
      cases this
    case pos =>
      obtain ⟨⟨k', v'⟩, hm, rfl⟩ := List.mem_map.mp hk
      have := h ▸ get?_foldl_insert_of_mem (m := ∅) hd hm
      injection this with this
      exact this ▸ hm

theorem ofList_entries (m : SortedMap κ ν) : ofList m.entries = m := by
  apply ext_get?
  intro k
  apply Option.ext
  intro v
  rw [get?_ofList_eq_some_iff nodup_keys, mem_entries_iff]

theorem keys_ofList_perm (hd : (es.map (·.1)).Nodup) : (ofList es).keys.Perm (es.map (·.1)) := by
  apply (List.perm_ext_iff_of_nodup nodup_keys hd).mpr
  intro k
  simp [mem_keys_iff, get?_ofList_eq_some_iff hd]

-- Without keys that occur twice, no entry overwrites another one.
theorem ofList_eq_of_perm {es' : List (κ × ν)} (hd : (es.map (·.1)).Nodup) (h : es.Perm es') :
    ofList es = ofList es' := by
  apply ext_get?
  intro k
  apply Option.ext
  intro v
  rw [get?_ofList_eq_some_iff hd, get?_ofList_eq_some_iff ((h.map _).nodup_iff.mp hd), h.mem_iff]

end Inserting

end ContainerSizing.SortedMap
