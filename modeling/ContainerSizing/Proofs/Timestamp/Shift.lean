import ContainerSizing.Proofs.Timestamp.Order

namespace ContainerSizing.Timestamp

variable {s s' t t' : Timestamp} {span : ℤ} {minutes : Float}

-- Nanoseconds from 1970-01-01T00:00:00Z; a leap second shares them with the second that follows it.
def position (t : Timestamp) : ℤ :=
  t.seconds * 1000000000 + t.nanos

theorem nanos_lt (h : ¬t.IsLeap) : t.nanos < 1000000000 :=
  not_le.mp h

theorem addNanos?_eq_some_iff (ht : ¬t.IsLeap) :
    t.addNanos? span = some s ↔ ¬s.IsLeap ∧ s.position = t.position + span := by
  have hlt := nanos_lt ht
  have hadd : t.addNanos? span = ofParts? (t.seconds + (t.nanos + span) / 1000000000)
      ((t.nanos + span) % 1000000000).toNat := if_pos (.inl hlt)
  rw [hadd, ofParts?_eq_some_iff]
  simp only [position, IsLeap, nanosPerSecond]
  omega

-- `t'` comes `span` nanoseconds after `t`, and none of them is a leap second.
structure Moves (span : ℤ) (t t' : Timestamp) : Prop where
  regular  : ¬t.IsLeap
  regular' : ¬t'.IsLeap
  position : t'.position = t.position + span

theorem moves_iff : Moves span t t' ↔ ¬t.IsLeap ∧ t.addNanos? span = some t' := by
  constructor
  · exact fun ⟨ht, ht', h⟩ => ⟨ht, (addNanos?_eq_some_iff ht).mpr ⟨ht', h⟩⟩
  · intro ⟨ht, h⟩
    obtain ⟨ht', h⟩ := (addNanos?_eq_some_iff ht).mp h
    exact ⟨ht, ht', h⟩

namespace Moves

theorem le_iff (h : Moves span s s') (h' : Moves span t t') : s ≤ t ↔ s' ≤ t' := by
  have := nanos_lt h.regular
  have := nanos_lt h.regular'
  have := nanos_lt h'.regular
  have := nanos_lt h'.regular'
  have := h.position
  have := h'.position
  rw [Timestamp.le_iff, Timestamp.le_iff]
  simp only [Timestamp.position] at *
  omega

theorem lt_iff (h : Moves span s s') (h' : Moves span t t') : s < t ↔ s' < t' := by
  rw [← not_iff_not, not_lt_iff_le, not_lt_iff_le, h'.le_iff h]

theorem eq_iff (h : Moves span s s') (h' : Moves span t t') : s = t ↔ s' = t' := by
  constructor
  · rintro rfl
    exact Timestamp.le_antisymm ((h.le_iff h').mp Timestamp.le_rfl) ((h'.le_iff h).mp Timestamp.le_rfl)
  · rintro rfl
    exact Timestamp.le_antisymm ((h.le_iff h').mpr Timestamp.le_rfl)
      ((h'.le_iff h).mpr Timestamp.le_rfl)

-- What lies a number of minutes earlier moves as well, as long as it stays in range.
theorem minutesBefore? (h : Moves span t t') (hs : t.minutesBefore? minutes = some s)
    (hs' : t'.minutesBefore? minutes = some s') : Moves span s s' := by
  rw [Timestamp.minutesBefore?] at hs hs'
  cases hm : wholeMillis? minutes <;> rw [hm] at hs hs'
  case none => cases hs
  case some millis =>
    obtain ⟨hl, hp⟩ := (addNanos?_eq_some_iff h.regular).mp hs
    obtain ⟨hl', hp'⟩ := (addNanos?_eq_some_iff h.regular').mp hs'
    refine ⟨hl, hl', ?_⟩
    rw [hp, hp', h.position]
    ring

end Moves

end ContainerSizing.Timestamp
