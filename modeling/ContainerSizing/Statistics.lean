import ContainerSizing.Binary64.Basic
import ContainerSizing.EvaluationError

namespace ContainerSizing.Statistics

open Binary64

def sort (xs : List Float) : List Float :=
  xs.mergeSort fun a b => rank a ≤ rank b

theorem sort_perm (xs : List Float) : (sort xs).Perm xs :=
  List.mergeSort_perm xs _

theorem sort_pairwise (xs : List Float) :
    (sort xs).Pairwise fun a b => rank a ≤ rank b := by
  have h : (sort xs).Pairwise fun a b => decide (rank a ≤ rank b) := by
    apply List.pairwise_mergeSort
    · exact fun a b c => by simpa using Nat.le_trans
    · exact fun a b => by simpa using Nat.le_total _ _
  exact h.imp fun h => by simpa using h

-- The position nearest to the percentile `p` among `count` sorted values.
def nearestRank (p : Float) (count : Nat) : Nat :=
  toNearestNat (count - 1) (p / 100.0 * Float.ofNat (count - 1))

theorem nearestRank_lt (p : Float) {count : Nat} (h : 0 < count) : nearestRank p count < count :=
  Nat.lt_of_le_of_lt (toNearestNat_le _ _) (Nat.sub_lt h Nat.one_pos)

def percentile (p : Float) (xs : List Float) : Except EvaluationError Float :=
  match (sort xs)[nearestRank p xs.length]? with
  | some x => .ok x
  | none => .error .noValues

theorem percentile_ne_error {p : Float} {xs : List Float} (h : xs ≠ []) :
    ∃ x ∈ xs, percentile p xs = .ok x := by
  have hlt : nearestRank p xs.length < (sort xs).length := by
    rw [(sort_perm xs).length_eq]
    exact nearestRank_lt p (List.length_pos_iff.mpr h)
  refine ⟨(sort xs)[nearestRank p xs.length], (sort_perm xs).mem_iff.mp (List.getElem_mem hlt), ?_⟩
  simp [percentile, List.getElem?_eq_getElem hlt]

-- The last of the largest values.
def largest : List Float → Except EvaluationError Float
  | [] => .error .noValues
  | x :: xs => .ok (xs.foldl (fun a b => if rank b < rank a then a else b) x)

-- How often the average goes into the sum; nothing when the average is zero.
def ratio (sum average : Float) : Float :=
  if average == 0.0 then 0.0 else sum / average

-- The number of pods behind a sum and an average, rounded up and held to 32 bits.
def pods (sum average : Float) : UInt32 :=
  if average == 0.0 then 0 else (ceil (sum / average)).toUInt32

end ContainerSizing.Statistics
