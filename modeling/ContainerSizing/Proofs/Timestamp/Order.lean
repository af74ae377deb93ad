import ContainerSizing.Proofs.Binary64.Nonnegative
import ContainerSizing.Timestamp.Basic

namespace ContainerSizing.Timestamp

open Binary64

variable {s t u : Timestamp} {minutes : Float} {span : ℤ}

theorem compare_eq_then (s t : Timestamp) :
    compare s t = (compare s.seconds t.seconds).then (compare s.nanos t.nanos) :=
  rfl

theorem lt_iff : s < t ↔ s.seconds < t.seconds ∨ s.seconds = t.seconds ∧ s.nanos < t.nanos := by
  change compare s t = .lt ↔ _
  rw [compare_eq_then, Ordering.then_eq_lt]
  simp [compare_lt_iff_lt]

theorem le_iff : s ≤ t ↔ s.seconds < t.seconds ∨ s.seconds = t.seconds ∧ s.nanos ≤ t.nanos := by
  change compare s t ≠ .gt ↔ _
  rw [compare_eq_then, ne_eq, Ordering.then_eq_gt]
  simp only [compare_gt_iff_gt, compare_eq_iff_eq]
  omega

protected theorem le_rfl : t ≤ t := by
  rw [le_iff]
  omega

protected theorem le_trans (h : s ≤ t) (h' : t ≤ u) : s ≤ u := by
  rw [le_iff] at *
  omega

protected theorem le_antisymm (h : s ≤ t) (h' : t ≤ s) : s = t := by
  rw [le_iff] at *
  apply eq_of_compare_eq
  rw [compare_eq_then, Ordering.then_eq_eq, compare_eq_iff_eq, compare_eq_iff_eq]
  omega

protected theorem le_of_lt (h : s < t) : s ≤ t := by
  rw [lt_iff] at h
  rw [le_iff]
  omega

protected theorem lt_of_lt_of_le (h : s < t) (h' : t ≤ u) : s < u := by
  rw [lt_iff] at *
  rw [le_iff] at h'
  omega

theorem not_lt_iff_le : ¬s < t ↔ t ≤ s := by
  rw [le_iff, lt_iff]
  omega

protected theorem lt_asymm (h : s < t) : ¬t < s :=
  not_lt_iff_le.mpr (Timestamp.le_of_lt h)

protected theorem not_le_of_lt (h : s < t) : ¬t ≤ s :=
  mt not_lt_iff_le.mpr (not_not.mpr h)

theorem le_iff_eq_or_lt : s ≤ t ↔ s = t ∨ s < t := by
  constructor
  · intro h
    by_cases hlt : s < t
    · exact .inr hlt
    · exact .inl (Timestamp.le_antisymm h (not_lt_iff_le.mp hlt))
  · rintro (rfl | h)
    · exact Timestamp.le_rfl
    · exact Timestamp.le_of_lt h

theorem ofParts?_eq_some_iff {seconds : ℤ} {nanos : ℕ} :
    ofParts? seconds nanos = some t ↔ t.seconds = seconds ∧ t.nanos = nanos := by
  rw [ofParts?]
  constructor
  · intro h
    split at h
    · injection h with h
      subst h
      exact ⟨rfl, rfl⟩
    · cases h
  · rintro ⟨rfl, rfl⟩
    exact dif_pos t.valid

theorem eq_of_ofParts? {seconds : ℤ} {nanos : ℕ} (h : ofParts? seconds nanos = some t) :
    t.seconds = seconds ∧ t.nanos = nanos :=
  ofParts?_eq_some_iff.mp h

theorem addNanos?_le (hs : span ≤ 0) (h : t.addNanos? span = some s) : s ≤ t := by
  have ⟨_, _, hlt, _⟩ := t.valid
  simp only [addNanos?] at h
  rw [le_iff]
  split_ifs at h <;> have ⟨hs, hn⟩ := eq_of_ofParts? h <;> simp only [nanosPerSecond] at *
  all_goals omega

theorem isNonneg_millis (hm : isMeasure minutes) : IsNonneg (minutes * 60000.0) := by
  apply (IsNonneg.of_isMeasure hm).mul rfl
  exact (pos_iff_value_pos (isNumber_of_isFinite rfl)).mp (by decide +kernel)

theorem wholeMillis?_nonneg {millis : ℤ} (hm : isMeasure minutes)
    (h : wholeMillis? minutes = some millis) : 0 ≤ millis := by
  rw [wholeMillis?] at h
  split at h
  case h_1 n hn =>
    split at h
    · injection h with h
      exact h ▸ toNearest?_nonneg (isNonneg_millis hm).nonneg hn
    · cases h
  case h_2 => cases h

theorem minutesBefore?_le (hm : isMeasure minutes) (h : t.minutesBefore? minutes = some s) : s ≤ t := by
  rw [minutesBefore?] at h
  split at h
  case h_1 millis hw =>
    have := wholeMillis?_nonneg hm hw
    exact addNanos?_le (by omega) h
  case h_2 => cases h

end ContainerSizing.Timestamp
