import ContainerSizing.Proofs.Timestamp.Shift
import ContainerSizing.Proofs.Timestamp.Span

namespace ContainerSizing.Timestamp

open Binary64

variable {s s' t : Timestamp} {span span' : ℤ} {minutes minutes' : Float}

section Spans

-- The position alone tells an instant from all others but for a leap second and the second after it.
theorem eq_of_position_eq (h : s.position = s'.position) (hl : s.IsLeap ↔ s'.IsLeap) : s = s' := by
  have ⟨_, _, hlt, _⟩ := s.valid
  have ⟨_, _, hlt', _⟩ := s'.valid
  simp only [position, IsLeap, nanosPerSecond] at *
  apply Timestamp.le_antisymm <;> rw [le_iff] <;> omega

theorem earliest_le_position (t : Timestamp) : earliestSecond * nanosPerSecond ≤ t.position := by
  have ⟨hle, _⟩ := t.valid
  rw [position, nanosPerSecond]
  omega

-- All instants lie within a span that has a 64-bit count of milliseconds.
theorem position_lt (t : Timestamp) :
    t.position < earliestSecond * nanosPerSecond + 2 ^ 63 * 1000000 := by
  have ⟨_, hle, hlt, _⟩ := t.valid
  have hlo : earliestSecond = -8334601228800 := by decide
  have hhi : latestSecond = 8210266876799 := by decide
  rw [hhi] at hle
  rw [position, hlo]
  rw [nanosPerSecond] at hlt ⊢
  omega

-- `s` lies `span` nanoseconds before `t`. It lies in a leap second only if `t` does and the span does
-- not lead out of it.
structure Precedes (span : ℤ) (s t : Timestamp) : Prop where
  position : s.position = t.position - span
  isLeap   : s.IsLeap ↔ nanosPerSecond + span ≤ t.nanos

namespace Precedes

theorem unique (h : Precedes span s t) (h' : Precedes span s' t) : s = s' :=
  eq_of_position_eq (h.position.trans h'.position.symm) (h.isLeap.trans h'.isLeap.symm)

theorem of_addNanos? (hs : 0 ≤ span) (h : t.addNanos? (-span) = some s) : Precedes span s t := by
  have ⟨_, _, hlt, _⟩ := t.valid
  simp only [addNanos?] at h
  split_ifs at h <;> obtain ⟨_, _⟩ := eq_of_ofParts? h <;> constructor <;>
    simp only [Timestamp.position, IsLeap, nanosPerSecond] at *
  all_goals omega

end Precedes

theorem ofParts?_eq_none_iff {seconds : ℤ} {nanos : ℕ} :
    ofParts? seconds nanos = none ↔ ¬Valid seconds nanos := by
  rw [ofParts?]
  split <;> simp [*]

theorem addNanos?_neg_eq_none_iff (hs : 0 ≤ span) :
    t.addNanos? (-span) = none ↔ t.position - span < earliestSecond * nanosPerSecond := by
  have ⟨_, _, hlt, _⟩ := t.valid
  simp only [addNanos?]
  split_ifs <;> rw [ofParts?_eq_none_iff, Valid, position] <;> simp only [nanosPerSecond] at *
  all_goals omega

theorem addNanos?_neg_eq_some_iff (hs : 0 ≤ span) :
    t.addNanos? (-span) = some s ↔ Precedes span s t := by
  constructor
  · exact .of_addNanos? hs
  · intro h
    cases ha : t.addNanos? (-span)
    case none =>
      rw [addNanos?_neg_eq_none_iff hs, ← h.position] at ha
      exact absurd ha (not_lt.mpr s.earliest_le_position)
    case some => rw [(Precedes.of_addNanos? hs ha).unique h]

-- An instant that can be reached leaves all later ones within reach.
theorem exists_addNanos?_of_le (hs : 0 ≤ span) (h : span ≤ span')
    (ha : t.addNanos? (-span') = some s') : ∃ s, t.addNanos? (-span) = some s ∧ s' ≤ s := by
  have hp := (Precedes.of_addNanos? (hs.trans h) ha).position
  have hle := s'.earliest_le_position
  have hne : t.addNanos? (-span) ≠ none := by
    rw [ne_eq, addNanos?_neg_eq_none_iff hs]
    omega
  have ⟨s, hs⟩ := Option.ne_none_iff_exists'.mp hne
  exact ⟨s, hs, addNanos?_mono (by omega) ha hs⟩

end Spans

section Minutes

theorem wholeMillis?_eq_none_iff :
    wholeMillis? minutes = none ↔
      ¬(minutes * 60000.0).isFinite ∨ 2 ^ 63 ≤ |nearestMillis minutes| := by
  rw [← not_lt, ← not_and_or, Option.eq_none_iff_forall_ne_some]
  constructor
  · exact fun h ⟨hf, hlt⟩ => h _ (wholeMillis?_eq_some_iff.mpr ⟨hf, rfl, hlt⟩)
  · intro h millis hw
    obtain ⟨hf, rfl, hlt⟩ := wholeMillis?_eq_some_iff.mp hw
    exact h ⟨hf, hlt⟩

theorem nearestMillis_nonneg (hm : isMeasure minutes) : 0 ≤ nearestMillis minutes := by
  have hzero : nearestAway 0 = 0 := nearestAway_intCast 0
  rw [nearestMillis, ← hzero]
  exact nearestAway_monotone (isNonneg_millis hm).nonneg

theorem nearestMillis_mul_nonneg (hm : isMeasure minutes) : 0 ≤ nearestMillis minutes * 1000000 :=
  mul_nonneg (nearestMillis_nonneg hm) (by norm_num)

theorem value_millis_mono (hm : isMeasure minutes) (hm' : isMeasure minutes') (h : minutes ≤ minutes') :
    value (minutes * 60000.0) ≤ value (minutes' * 60000.0) := by
  rw [value_mul (isMeasure_iff.mp hm).left rfl, value_mul (isMeasure_iff.mp hm').left rfl]
  apply rounded_monotone
  rw [value_millisPerMinute]
  exact mul_le_mul_of_nonneg_right (value_le_of_le h) (by norm_num)

-- The minutes lead back before the first year, or are too many for a float to hold their milliseconds.
def IsOutOfReach (t : Timestamp) (minutes : Float) : Prop :=
  ¬(minutes * 60000.0).isFinite ∨
    t.position - nearestMillis minutes * 1000000 < earliestSecond * nanosPerSecond

theorem minutesBefore?_of_not_isFinite (h : ¬(minutes * 60000.0).isFinite) :
    t.minutesBefore? minutes = none := by
  rw [minutesBefore?, wholeMillis?_eq_none_iff.mpr (.inl h)]

-- More milliseconds than 64 bits can count would lead before the first year as well.
theorem minutesBefore?_eq_addNanos? (hm : isMeasure minutes) (hf : (minutes * 60000.0).isFinite) :
    t.minutesBefore? minutes = t.addNanos? (-(nearestMillis minutes * 1000000)) := by
  rw [minutesBefore?]
  cases hw : wholeMillis? minutes
  case none =>
    have hle := (wholeMillis?_eq_none_iff.mp hw).resolve_left (not_not.mpr hf)
    rw [abs_of_nonneg (nearestMillis_nonneg hm)] at hle
    have hlt := t.position_lt
    exact ((addNanos?_neg_eq_none_iff (nearestMillis_mul_nonneg hm)).mpr (by omega)).symm
  case some millis =>
    obtain ⟨_, rfl, _⟩ := wholeMillis?_eq_some_iff.mp hw
    rw [← neg_mul]

theorem minutesBefore?_eq_some_iff (hm : isMeasure minutes) :
    t.minutesBefore? minutes = some s ↔
      (minutes * 60000.0).isFinite ∧ Precedes (nearestMillis minutes * 1000000) s t := by
  by_cases hf : (minutes * 60000.0).isFinite
  case pos =>
    rw [minutesBefore?_eq_addNanos? hm hf, addNanos?_neg_eq_some_iff (nearestMillis_mul_nonneg hm),
      and_iff_right hf]
  case neg => simp [minutesBefore?_of_not_isFinite hf, hf]

theorem minutesBefore?_eq_none_iff (hm : isMeasure minutes) :
    t.minutesBefore? minutes = none ↔ t.IsOutOfReach minutes := by
  by_cases hf : (minutes * 60000.0).isFinite
  case pos =>
    rw [minutesBefore?_eq_addNanos? hm hf, addNanos?_neg_eq_none_iff (nearestMillis_mul_nonneg hm),
      IsOutOfReach, or_iff_right (not_not.mpr hf)]
  case neg => exact iff_of_true (minutesBefore?_of_not_isFinite hf) (.inl hf)

theorem minutesBefore?_antitone (hm : isMeasure minutes) (hm' : isMeasure minutes')
    (h : minutes ≤ minutes') (hs : t.minutesBefore? minutes' = some s') :
    ∃ s, t.minutesBefore? minutes = some s ∧ s' ≤ s := by
  have hv := value_millis_mono hm hm' h
  have hf' := ((minutesBefore?_eq_some_iff hm').mp hs).left
  have hf := (isNonneg_millis hm).isFinite_of_le hf' hv
  have hle : nearestMillis minutes ≤ nearestMillis minutes' := nearestAway_monotone hv
  rw [minutesBefore?_eq_addNanos? hm' hf'] at hs
  rw [minutesBefore?_eq_addNanos? hm hf]
  exact exists_addNanos?_of_le (nearestMillis_mul_nonneg hm) (by omega) hs

end Minutes

end ContainerSizing.Timestamp
