import ContainerSizing.Proofs.Binary64.Nearest
import ContainerSizing.Proofs.Timestamp.Order

namespace ContainerSizing.Timestamp

open Binary64

variable {s s' t : Timestamp} {span span' millis : ℤ} {minutes : Float} {days days' : ℕ}

theorem addNanos?_mono (h : span ≤ span') (hs : t.addNanos? span = some s)
    (hs' : t.addNanos? span' = some s') : s ≤ s' := by
  obtain ⟨_, _, hlt, _⟩ := t.valid
  simp only [addNanos?] at hs hs'
  rw [le_iff]
  split_ifs at hs hs' <;> obtain ⟨_, _⟩ := eq_of_ofParts? hs <;> obtain ⟨_, _⟩ := eq_of_ofParts? hs' <;>
    simp only [nanosPerSecond] at *
  all_goals omega

section Minutes

theorem value_millisPerMinute : value 60000.0 = (60000 : ℕ) := by
  have h : (60000.0 : Float) = .ofNat 60000 := by decide +kernel
  rw [h]
  exact (isFinite_and_value_ofNat (by norm_num)).right

-- The whole number of milliseconds that is nearest to the minutes, however large it is.
def nearestMillis (minutes : Float) : ℤ :=
  nearestAway (value (minutes * 60000.0))

theorem wholeMillis?_eq_some_iff :
    wholeMillis? minutes = some millis ↔
      (minutes * 60000.0).isFinite ∧ nearestMillis minutes = millis ∧ |millis| < 2 ^ 63 := by
  have hmax : Int64.maxValue.toNatClampNeg = 2 ^ 63 - 1 := rfl
  rw [wholeMillis?, hmax]
  by_cases hf : (minutes * 60000.0).isFinite
  case neg => simp [toNearest?_of_not_isFinite hf, hf]
  case pos =>
    have hn : toNearest? (minutes * 60000.0) = some (nearestMillis minutes) := toNearest?_eq hf
    simp only [hn, hf, true_and, Option.ite_none_right_eq_some, Option.some.injEq, Int.abs_eq_natAbs]
    constructor
    · rintro ⟨hle, rfl⟩
      exact ⟨rfl, by omega⟩
    · rintro ⟨rfl, hlt⟩
      exact ⟨by omega, rfl⟩

end Minutes

section Days

-- The instant that lies a number of days earlier, each of 24 hours.
def daysBefore? (t : Timestamp) (days : ℕ) : Option Timestamp :=
  t.addNanos? (-(days * 86400 * nanosPerSecond))

theorem daysBefore?_antitone (h : days ≤ days') (hs : t.daysBefore? days = some s)
    (hs' : t.daysBefore? days' = some s') : s' ≤ s := by
  refine addNanos?_mono ?_ hs' hs
  simp only [nanosPerSecond]
  omega

-- Days are whole milliseconds, and few enough of them for a float.
theorem wholeMillis?_eq_days (hf : minutes.isFinite) (hv : value minutes = (days * 1440 : ℕ))
    (hd : days < 2 ^ 32) : wholeMillis? minutes = some (days * 86400000 : ℤ) := by
  have hr : Representable (days * 86400000) := by
    have := representable_natCast_mul_zpow (n := days * 84375) (e := 10) (by omega) (by omega) (by omega)
    convert this using 1
    push_cast
    ring
  have hm : value (minutes * 60000.0) = (days * 86400000 : ℤ) := by
    rw [value_mul hf rfl, hv, value_millisPerMinute]
    push_cast
    rw [mul_assoc]
    norm_num [rounded_eq_self hr]
  have hlt : |((days * 86400000 : ℤ) : ℚ)| < limit := by
    rw [abs_of_nonneg (Int.cast_nonneg (by omega)), limit]
    calc ((days * 86400000 : ℤ) : ℚ)
      _ ≤ (2 ^ 64 : ℤ) := Int.cast_le.mpr (by omega)
      _ = 2 ^ 64 := by norm_num
      _ < 2 ^ 1024 := pow_lt_pow_right₀ one_lt_two (by norm_num)
  rw [← hm, ← isFinite_iff_abs_value_lt (isNumber_mul hf rfl)] at hlt
  refine wholeMillis?_eq_some_iff.mpr ⟨hlt, by rw [nearestMillis, hm, nearestAway_intCast], ?_⟩
  rw [abs_of_nonneg (by omega)]
  omega

theorem minutesBefore?_eq_daysBefore? (hf : minutes.isFinite) (hv : value minutes = (days * 1440 : ℕ))
    (hd : days < 2 ^ 32) : t.minutesBefore? minutes = t.daysBefore? days := by
  rw [minutesBefore?, wholeMillis?_eq_days hf hv hd, daysBefore?]
  simp only [nanosPerSecond]
  congr 1
  push_cast
  ring

end Days

end ContainerSizing.Timestamp
