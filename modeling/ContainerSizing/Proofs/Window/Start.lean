import ContainerSizing.Engine.CapacityBased
import ContainerSizing.Proofs.Series
import ContainerSizing.Proofs.Timestamp.Backward

namespace ContainerSizing

open Binary64
open Timestamp (Precedes nearestMillis wholeMillis?)

namespace Interval

variable {i : Interval} {stop : Timestamp} {error : EvaluationError}

theorem start_eq_error_iff :
    i.start stop = .error error ↔
      stop.minutesBefore? i.minutes = none ∧ error = .windowOutOfRange stop i.minutes := by
  rw [start]
  cases stop.minutesBefore? i.minutes <;> simp [eq_comm]

-- A window of days begins where an interval of as many minutes would.
theorem start_bare_minutes (term : Term) (stop : Timestamp) :
    (bare term.minutes).start stop = CapacityBased.start term stop :=
  rfl

-- Where intervals begin that end at `stop`. A longer one begins no later, and it has a beginning unless
-- that lies before the first year, which is the only error. Milliseconds are counted exactly, up to
-- what 64 bits can hold.
theorem start_bounded (stop : Timestamp) :
    (∀ i j : Interval, isMeasure i.minutes → isMeasure j.minutes → i.minutes ≤ j.minutes →
      ∀ s', j.start stop = .ok s' → ∃ s, i.start stop = .ok s ∧ s' ≤ s ∧ s ≤ stop) ∧
    (∀ i : Interval, isMeasure i.minutes →
      (∀ s, i.start stop = .ok s ↔
        (i.minutes * 60000.0).isFinite ∧ Precedes (nearestMillis i.minutes * 1000000) s stop) ∧
      ∀ error, i.start stop = .error error ↔
        stop.IsOutOfReach i.minutes ∧ error = .windowOutOfRange stop i.minutes) ∧
    (∀ (i : Interval) (error : EvaluationError), i.start stop = .error error →
      error = .windowOutOfRange stop i.minutes) ∧
    (∀ term : Term, (bare term.minutes).start stop = CapacityBased.start term stop) ∧
    ∀ minutes : Float,
      (wholeMillis? minutes = none ↔
        ¬(minutes * 60000.0).isFinite ∨ 2 ^ 63 ≤ |nearestMillis minutes|) ∧
      ∀ millis, wholeMillis? minutes = some millis →
        millis = nearestMillis minutes ∧ (Int64.ofInt millis).toInt = millis := by
  refine ⟨?antitone, ?exact, ?error, fun term => start_bare_minutes term stop, ?millis⟩
  case antitone =>
    intro i j hi hj h s' hs'
    obtain ⟨s, hs, hle⟩ := Timestamp.minutesBefore?_antitone hi hj h (start_eq_ok_iff.mp hs')
    exact ⟨s, start_eq_ok_iff.mpr hs, hle, Timestamp.minutesBefore?_le hi hs⟩
  case exact =>
    intro i hi
    constructor
    · exact fun s => start_eq_ok_iff.trans (Timestamp.minutesBefore?_eq_some_iff hi)
    · intro error
      rw [start_eq_error_iff, Timestamp.minutesBefore?_eq_none_iff hi]
  case error => exact fun i error h => (start_eq_error_iff.mp h).right
  case millis =>
    intro minutes
    refine ⟨Timestamp.wholeMillis?_eq_none_iff, fun millis h => ?_⟩
    obtain ⟨_, rfl, hlt⟩ := Timestamp.wholeMillis?_eq_some_iff.mp h
    rw [abs_lt] at hlt
    exact ⟨rfl, Int64.toInt_ofInt_of_le (by omega) (by omega)⟩

section LeapSecond

-- Half a second into the leap second at the end of 2016.
def leapInstant : Timestamp :=
  ⟨1483228799, 1500000000, by decide⟩

-- 300 milliseconds earlier, which is in the leap second still.
def earlierInLeap : Timestamp :=
  ⟨1483228799, 1200000000, by decide⟩

-- One minute earlier, half a second into that minute.
def minuteBeforeLeap : Timestamp :=
  ⟨1483228740, 500000000, by decide⟩

theorem start_bounded_leapInstant :
    isMeasure 0.005 ∧ isMeasure 1.0 ∧ (0.005 : Float) ≤ 1.0 ∧
    (bare 1.0).start leapInstant = .ok minuteBeforeLeap ∧
    (∃ s, (bare 0.005).start leapInstant = .ok s ∧ minuteBeforeLeap ≤ s ∧ s ≤ leapInstant) ∧
    wholeMillis? 0.005 = some 300 ∧ nearestMillis 0.005 = 300 ∧
    Precedes (nearestMillis 0.005 * 1000000) earlierInLeap leapInstant ∧
    isMeasure 1e12 ∧
    (bare 1e12).start leapInstant = .error (.windowOutOfRange leapInstant 1e12) ∧
    leapInstant.IsOutOfReach 1e12 := by
  have hshort : isMeasure 0.005 := by decide +kernel
  have hlong : isMeasure 1.0 := by decide +kernel
  have hle : (0.005 : Float) ≤ 1.0 := by decide +kernel
  have hendless : isMeasure 1e12 := by decide +kernel
  have hminute : (bare 1.0).start leapInstant = .ok minuteBeforeLeap :=
    start_eq_ok_iff.mpr (by decide +kernel)
  have hmillis : wholeMillis? 0.005 = some 300 := by decide +kernel
  have hearlier : (bare 0.005).start leapInstant = .ok earlierInLeap :=
    start_eq_ok_iff.mpr (by decide +kernel)
  have herror : (bare 1e12).start leapInstant = .error (.windowOutOfRange leapInstant 1e12) :=
    start_eq_error_iff.mpr ⟨by decide +kernel, rfl⟩
  have ⟨hantitone, hexact, _, _, hcount⟩ := start_bounded leapInstant
  refine ⟨hshort, hlong, hle, hminute, ?_, hmillis, ?_, ?_, hendless, herror, ?_⟩
  · exact hantitone (bare 0.005) (bare 1.0) hshort hlong hle _ hminute
  · exact ((hcount 0.005).right 300 hmillis).left.symm
  · exact (((hexact (bare 0.005) hshort).left _).mp hearlier).right
  · exact (((hexact (bare 1e12) hendless).right _).mp herror).left

end LeapSecond

end Interval

end ContainerSizing
