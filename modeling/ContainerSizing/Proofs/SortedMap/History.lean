import ContainerSizing.Proofs.SortedMap

namespace ContainerSizing.SortedMap

variable {κ : Type u} {ν : Type v} {log log' : List (κ × ν)} {e : κ × ν} {k : κ} {v : ν}

-- Nothing is written under `k` behind the write of `v`.
def WritesLast (log : List (κ × ν)) (k : κ) (v : ν) : Prop :=
  ∃ before after, log = before ++ (k, v) :: after ∧ k ∉ after.map (·.1)

namespace WritesLast

theorem not_nil : ¬WritesLast [] k v :=
  fun ⟨_, _, h, _⟩ => by simp at h

-- One more write counts for its own key, and for no other one.
theorem append_singleton_iff :
    WritesLast (log ++ [e]) k v ↔ (k, v) = e ∨ k ≠ e.1 ∧ WritesLast log k v := by
  constructor
  case mp =>
    rintro ⟨before, after, h, hk⟩
    rcases List.eq_nil_or_concat after with rfl | ⟨after, d, rfl⟩
    case inl => exact .inl (List.singleton_inj.mp (List.append_inj' h rfl).right).symm
    case inr =>
      rw [List.concat_eq_append] at h hk
      rw [← List.cons_append, ← List.append_assoc] at h
      obtain ⟨hlog, he⟩ := List.append_inj' h rfl
      obtain rfl : e = d := List.singleton_inj.mp he
      simp only [List.map_append, List.mem_append, not_or] at hk
      exact .inr ⟨by simpa using hk.right, before, after, hlog, hk.left⟩
  case mpr =>
    rintro (rfl | ⟨hne, before, after, rfl, hk⟩)
    case inl => exact ⟨log, [], rfl, List.not_mem_nil⟩
    case inr =>
      refine ⟨before, after ++ [e], by simp, ?_⟩
      simp only [List.map_append, List.mem_append, not_or]
      exact ⟨hk, by simpa using hne⟩

-- A write that is overwritten later has no effect.
theorem cons_iff_of_mem (h : e.1 ∈ log.map (·.1)) : WritesLast (e :: log) k v ↔ WritesLast log k v := by
  constructor
  case mp =>
    rintro ⟨before, after, he, hk⟩
    cases before
    case nil =>
      obtain ⟨rfl, rfl⟩ := List.cons.inj he
      exact absurd h hk
    case cons d before =>
      obtain ⟨rfl, rfl⟩ := List.cons.inj he
      exact ⟨before, after, rfl, hk⟩
  case mpr =>
    rintro ⟨before, after, rfl, hk⟩
    exact ⟨e :: before, after, rfl, hk⟩

theorem exists_iff : (∃ v, WritesLast log k v) ↔ k ∈ log.map (·.1) := by
  induction log using List.reverseRecOn
  case nil => simp [not_nil]
  case append_singleton log e hi =>
    simp only [append_singleton_iff, exists_or, exists_and_left, hi, List.map_append, List.map_cons,
      List.map_nil, List.mem_append, List.mem_singleton]
    constructor
    · rintro (⟨v, rfl⟩ | ⟨-, h⟩)
      · exact .inr rfl
      · exact .inl h
    · rintro (h | rfl)
      · by_cases he : k = e.1
        · exact .inl ⟨e.2, by rw [he]⟩
        · exact .inr ⟨he, h⟩
      · exact .inl ⟨e.2, rfl⟩

end WritesLast

variable [Ord κ] {m n : SortedMap κ ν}

-- The map holds what the log wrote last.
def Reflects (m : SortedMap κ ν) (log : List (κ × ν)) : Prop :=
  ∀ k v, m.get? k = some v ↔ WritesLast log k v

theorem reflects_empty : Reflects (∅ : SortedMap κ ν) [] := by
  intro k v
  simp [WritesLast.not_nil]

section Writing

variable [Std.TransOrd κ]

-- Writes all entries of a log, one after the other.
def insertAll (m : SortedMap κ ν) (log : List (κ × ν)) : SortedMap κ ν :=
  log.foldl (fun m e => m.insert e.1 e.2) m

variable [Std.LawfulEqOrd κ]

theorem Reflects.insert (h : m.Reflects log) : (m.insert k v).Reflects (log ++ [(k, v)]) := by
  intro k' v'
  rw [WritesLast.append_singleton_iff, Prod.mk.injEq]
  by_cases hk : k' = k
  case pos => simp [hk, get?_insert_self, eq_comm]
  case neg => simp [hk, get?_insert_of_ne hk, h k' v']

theorem Reflects.insertAll (h : m.Reflects log) : (m.insertAll log').Reflects (log ++ log') := by
  induction log' generalizing m log
  case nil => rwa [List.append_nil]
  case cons e es hi => simpa [SortedMap.insertAll] using hi (h.insert (k := e.1) (v := e.2))

theorem reflects_ofList (log : List (κ × ν)) : (ofList log).Reflects log :=
  reflects_empty.insertAll

end Writing

namespace Reflects

variable [Std.LawfulEqOrd κ]

theorem mem_entries_iff (h : m.Reflects log) : (k, v) ∈ m.entries ↔ WritesLast log k v := by
  rw [SortedMap.mem_entries_iff, h]

theorem mem_keys_iff (h : m.Reflects log) : k ∈ m.keys ↔ k ∈ log.map (·.1) := by
  rw [SortedMap.mem_keys_iff, exists_congr (h k), WritesLast.exists_iff]

-- A key counts once, however often it was written.
theorem size_eq [DecidableEq κ] (h : m.Reflects log) : m.size = (log.map (·.1)).toFinset.card := by
  have hk : m.keys.toFinset = (log.map (·.1)).toFinset := by
    ext k
    rw [List.mem_toFinset, List.mem_toFinset, h.mem_keys_iff]
  rw [← hk, List.toFinset_card_of_nodup nodup_keys, keys, List.length_map, size]

-- Two maps are the same if their logs agree on what was written last.
theorem eq_of_writesLast_iff [Std.TransOrd κ] (h : m.Reflects log) (h' : n.Reflects log')
    (hw : ∀ k v, WritesLast log k v ↔ WritesLast log' k v) : m = n := by
  apply ext_get?
  intro k
  apply Option.ext
  intro v
  rw [h, h', hw]

end Reflects

end ContainerSizing.SortedMap
