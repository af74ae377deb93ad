import ContainerSizing.Binary64.Basic
import ContainerSizing.Timestamp.Calendar

namespace ContainerSizing

namespace Timestamp

def nanosPerSecond : Nat := 1000000000

def secondsPerDay : Int := 86400

-- The first second of the year -262143.
def earliestSecond : Int := (CivilDate.mk (-262143) 1 1).toDays * secondsPerDay

-- The last second of the year 262142.
def latestSecond : Int := ((CivilDate.mk 262142 12 31).toDays + 1) * secondsPerDay - 1

-- Inside the supported years, and past the nanoseconds of a second only in a leap second.
def Valid (seconds : Int) (nanos : Nat) : Prop :=
  earliestSecond ≤ seconds ∧ seconds ≤ latestSecond ∧ nanos < 2 * nanosPerSecond ∧
    (nanosPerSecond ≤ nanos → seconds % 60 = 59)

instance (seconds : Int) (nanos : Nat) : Decidable (Valid seconds nanos) :=
  inferInstanceAs (Decidable (_ ∧ _))

end Timestamp

-- Seconds from 1970-01-01T00:00:00Z, and nanoseconds after them.
structure Timestamp where
  seconds : Int
  nanos : Nat
  valid : Timestamp.Valid seconds nanos
deriving DecidableEq

namespace Timestamp

instance : Inhabited Timestamp := ⟨0, 0, by decide⟩

def ofParts? (seconds : Int) (nanos : Nat) : Option Timestamp :=
  if h : Valid seconds nanos then some ⟨seconds, nanos, h⟩ else none

-- Chronological; a leap second lies between the second it follows and the next minute.
instance : Ord Timestamp :=
  ⟨compareLex (compareOn seconds) (compareOn nanos)⟩

instance : Std.TransOrd Timestamp :=
  inferInstanceAs (Std.TransCmp (compareLex (compareOn seconds) (compareOn nanos)))

instance : LT Timestamp := ⟨fun a b => compare a b = .lt⟩

instance : LE Timestamp := ⟨fun a b => compare a b ≠ .gt⟩

instance (a b : Timestamp) : Decidable (a < b) :=
  inferInstanceAs (Decidable (compare a b = .lt))

instance (a b : Timestamp) : Decidable (a ≤ b) :=
  inferInstanceAs (Decidable (compare a b ≠ .gt))

theorem eq_of_compare_eq {a b : Timestamp} (h : compare a b = .eq) : a = b := by
  have ⟨hs, hn⟩ : a.seconds = b.seconds ∧ a.nanos = b.nanos := by
    have h : compareLex (compareOn seconds) (compareOn nanos) a b = .eq := h
    rw [compareLex_eq_eq] at h
    exact ⟨Std.LawfulEqCmp.eq_of_compare h.1, Std.LawfulEqCmp.eq_of_compare h.2⟩
  cases a; cases b; cases hs; cases hn; rfl

instance : Std.LawfulEqOrd Timestamp where
  eq_of_compare := eq_of_compare_eq

def IsLeap (t : Timestamp) : Prop :=
  nanosPerSecond ≤ t.nanos

-- The instant `span` nanoseconds later. Within its second a leap second runs on like any other; a
-- span that leaves it forward goes on from the minute's end, a span that leaves it backward goes on
-- from the second before it.
def addNanos? (t : Timestamp) (span : Int) : Option Timestamp :=
  let offset := t.nanos + span
  if t.nanos < nanosPerSecond ∨ offset < nanosPerSecond then
    ofParts? (t.seconds + offset / nanosPerSecond) (offset % nanosPerSecond).toNat
  else if offset < 2 * nanosPerSecond then
    ofParts? t.seconds offset.toNat
  else
    let offset := offset - nanosPerSecond
    ofParts? (t.seconds + offset / nanosPerSecond) (offset % nanosPerSecond).toNat

-- A span of minutes in whole milliseconds; `none` when it has no 64-bit count of them.
def wholeMillis? (minutes : Float) : Option Int :=
  match Binary64.toNearest? (minutes * 60000.0) with
  | some millis => if millis.natAbs ≤ Int64.maxValue.toNatClampNeg then some millis else none
  | none => none

-- The instant that lies a number of minutes earlier; `none` outside the supported years.
def minutesBefore? (t : Timestamp) (minutes : Float) : Option Timestamp :=
  match wholeMillis? minutes with
  | some millis => t.addNanos? (-millis * 1000000)
  | none => none

-- The count of whole days from 1970-01-01.
def dayNumber (t : Timestamp) : Int :=
  t.seconds / secondsPerDay

-- Seconds since midnight.
def secondOfDay (t : Timestamp) : Nat :=
  (t.seconds % secondsPerDay).toNat

end Timestamp

end ContainerSizing
