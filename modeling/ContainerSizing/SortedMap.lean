namespace ContainerSizing

-- Entries in increasing order of their keys, one for each key.
structure SortedMap (κ : Type u) (ν : Type v) [Ord κ] where
  entries : List (κ × ν)
  sorted : entries.Pairwise fun a b => compare a.1 b.1 = .lt

namespace SortedMap

variable {κ : Type u} {ν : Type v} [Ord κ]

def empty : SortedMap κ ν :=
  ⟨[], .nil⟩

instance : EmptyCollection (SortedMap κ ν) := ⟨empty⟩

instance : Inhabited (SortedMap κ ν) := ⟨empty⟩

-- Places an entry by its key, over the one that holds the key already.
def insertEntry (k : κ) (v : ν) : List (κ × ν) → List (κ × ν)
  | [] => [(k, v)]
  | e :: es =>
    match compare k e.1 with
    | .lt => (k, v) :: e :: es
    | .eq => (k, v) :: es
    | .gt => e :: insertEntry k v es

theorem mem_insertEntry {k : κ} {v : ν} {e : κ × ν} {es : List (κ × ν)} :
    e ∈ insertEntry k v es → e = (k, v) ∨ e ∈ es := by
  induction es with
  | nil => simp [insertEntry]
  | cons d ds ih =>
    rw [insertEntry]
    split
    case h_1 => simp
    case h_2 => exact fun h => (List.mem_cons.mp h).imp id (List.mem_cons_of_mem _)
    case h_3 =>
      intro h
      rcases List.mem_cons.mp h with rfl | h
      · exact .inr (List.mem_cons_self ..)
      · exact (ih h).imp id (List.mem_cons_of_mem _)

theorem pairwise_insertEntry [Std.TransOrd κ] (k : κ) (v : ν) {es : List (κ × ν)}
    (h : es.Pairwise fun a b => compare a.1 b.1 = .lt) :
    (insertEntry k v es).Pairwise fun a b => compare a.1 b.1 = .lt := by
  induction es with
  | nil => simp [insertEntry]
  | cons d ds ih =>
    have ⟨hd, hs⟩ := List.pairwise_cons.mp h
    rw [insertEntry]
    split
    case h_1 hk =>
      refine List.pairwise_cons.mpr ⟨fun e he => ?_, h⟩
      rcases List.mem_cons.mp he with rfl | he
      · exact hk
      · exact Std.TransCmp.lt_trans hk (hd e he)
    case h_2 hk =>
      exact List.pairwise_cons.mpr ⟨fun e he => Std.TransCmp.lt_of_eq_of_lt hk (hd e he), hs⟩
    case h_3 hk =>
      refine List.pairwise_cons.mpr ⟨fun e he => ?_, ih hs⟩
      rcases mem_insertEntry he with rfl | he
      · exact Std.OrientedCmp.lt_of_gt hk
      · exact hd e he

def insert [Std.TransOrd κ] (m : SortedMap κ ν) (k : κ) (v : ν) : SortedMap κ ν :=
  ⟨insertEntry k v m.entries, pairwise_insertEntry k v m.sorted⟩

-- Inserts from the left, so that the last of several values for one key stays.
def ofList [Std.TransOrd κ] (es : List (κ × ν)) : SortedMap κ ν :=
  es.foldl (fun m e => m.insert e.1 e.2) ∅

def get? (m : SortedMap κ ν) (k : κ) : Option ν :=
  (m.entries.find? fun e => compare k e.1 == .eq).map (·.2)

def size (m : SortedMap κ ν) : Nat :=
  m.entries.length

def isEmpty (m : SortedMap κ ν) : Bool :=
  m.entries.isEmpty

def keys (m : SortedMap κ ν) : List κ :=
  m.entries.map (·.1)

def values (m : SortedMap κ ν) : List ν :=
  m.entries.map (·.2)

@[simp] theorem entries_empty : (∅ : SortedMap κ ν).entries = [] := rfl

@[simp] theorem entries_insert [Std.TransOrd κ] (m : SortedMap κ ν) (k : κ) (v : ν) :
    (m.insert k v).entries = insertEntry k v m.entries := rfl

theorem ext_entries {m n : SortedMap κ ν} (h : m.entries = n.entries) : m = n := by
  cases m; cases n; cases h; rfl

end SortedMap

end ContainerSizing
