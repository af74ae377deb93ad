import ContainerSizing.Timestamp.Calendar
import Mathlib.Tactic

namespace ContainerSizing.CivilDate

-- The days of an era before its year `y`.
def newYear (y : ℤ) : ℤ :=
  365 * y + y / 4 - y / 100 + y / 400

-- The year of an era that its day `n` falls into.
def yearOfEra (n : ℤ) : ℤ :=
  (n - n / 1460 + n / 36524 - n / 146096) / 365

section Era

variable {n y : ℤ}

theorem newYear_le_of_le (hlo : 0 ≤ n) (hhi : n < 146097) (h : y ≤ yearOfEra n) : newYear y ≤ n := by
  rw [newYear]
  rw [yearOfEra, Int.le_ediv_iff_mul_le (by omega)] at h
  have hlt : y < 400 := by omega
  have hleap : y / 4 ≤ n / 1460 := by omega
  have hcentury : n / 36524 ≤ y / 100 ∨ y / 100 + 1 ≤ n / 36524 := by omega
  omega

theorem le_yearOfEra (hlo : 0 ≤ n) (hhi : n < 146097) (hy : 0 ≤ y) (h : newYear y ≤ n) :
    y ≤ yearOfEra n := by
  rw [newYear] at h
  rw [yearOfEra, Int.le_ediv_iff_mul_le (by omega)]
  have hlt : y < 400 := by omega
  have hcentury : y / 100 ≤ n / 36524 := by omega
  have hleap : n / 1460 ≤ y / 4 ∨ y / 4 + 1 ≤ n / 1460 := by omega
  omega

-- A day lies between the new year of its year and the next one.
theorem yearOfEra_spec (hlo : 0 ≤ n) (hhi : n < 146097) :
    0 ≤ yearOfEra n ∧ yearOfEra n < 400 ∧ newYear (yearOfEra n) ≤ n ∧
      n < newYear (yearOfEra n + 1) := by
  have hy : 0 ≤ yearOfEra n := le_yearOfEra hlo hhi le_rfl (by simpa [newYear] using hlo)
  refine ⟨hy, ?_, newYear_le_of_le hlo hhi le_rfl, ?_⟩
  · by_contra h
    have := newYear_le_of_le hlo hhi (not_lt.mp h)
    simp [newYear] at this
    omega
  · by_contra h
    have := le_yearOfEra hlo hhi (by omega) (not_lt.mp h)
    omega

end Era

-- A day told by its era, its year in the era, and its number in the year.
structure Reckoning (days era year day : ℤ) : Prop where
  days_eq     : days + 719468 = era * 146097 + newYear year + day
  year_nonneg : 0 ≤ year
  year_lt     : year < 400
  day_nonneg  : 0 ≤ day
  day_lt      : newYear year + day < newYear (year + 1)

-- The date on a day of a year. The months from March on begin `(153 * month + 2) / 5` days after it.
def onDay (era year day : ℤ) : CivilDate :=
  let month := (5 * day + 2) / 153
  { year := if month < 10 then era * 400 + year else era * 400 + year + 1
    month := (if month < 10 then month + 3 else month - 9).toNat
    day := (day - (153 * month + 2) / 5 + 1).toNat }

theorem exists_reckoning (days : ℤ) :
    ∃ era year day, Reckoning days era year day ∧ ofDays days = onDay era year day := by
  have ⟨h₁, h₂, h₃, h₄⟩ := yearOfEra_spec (n := (days + 719468) % 146097) (by omega) (by omega)
  generalize hy : yearOfEra ((days + 719468) % 146097) = y at h₁ h₂ h₃ h₄
  refine ⟨(days + 719468) / 146097, y, (days + 719468) % 146097 - newYear y,
    ⟨by omega, h₁, h₂, by omega, by omega⟩, ?_⟩
  have hnew : newYear y = 365 * y + y / 4 - y / 100 := by
    rw [newYear]
    omega
  rw [hnew, ← hy]
  rfl

namespace Reckoning

variable {days era year day : ℤ}

theorem day_le (r : Reckoning days era year day) : day ≤ 365 := by
  have h := r.day_lt
  rw [newYear, newYear] at h
  omega

-- Only a leap year has a day more, and it is the last one.
theorem isLeapYear (r : Reckoning days era year day) (h : day = 365) :
    isLeapYear (era * 400 + year + 1) := by
  have ⟨_, h₁, h₂, _, hlt⟩ := r
  rw [newYear, newYear] at hlt
  simp only [CivilDate.isLeapYear, decide_eq_true_iff]
  omega

theorem toDays_onDay (r : Reckoning days era year day) : (onDay era year day).toDays = days := by
  have ⟨hd, h₁, h₂, h₃, _⟩ := r
  have h₄ := r.day_le
  rw [newYear] at hd
  simp only [toDays, onDay]
  split_ifs <;> omega

theorem exists_onDay (r : Reckoning days era year day) : (onDay era year day).Exists := by
  have hlo := r.day_nonneg
  have hhi := r.day_le
  obtain ⟨month, hmonth⟩ := Int.eq_ofNat_of_zero_le (show 0 ≤ (5 * day + 2) / 153 by omega)
  rw [onDay, hmonth]
  rcases (show month = 11 ∨ month < 11 by omega) with rfl | hlt
  case inl =>
    have hlast : (day - 337 + 1).toNat ≤
        if CivilDate.isLeapYear (era * 400 + year + 1) then 29 else 28 := by
      by_cases h : day = 365
      · simp [r.isLeapYear h, h]
      · split <;> omega
    exact ⟨by simp, by simp, by simp; omega, hlast⟩
  case inr => interval_cases month <;> simp [Exists, monthLength] <;> omega

end Reckoning

theorem monthLength_le (year : ℤ) (month : ℕ) : monthLength year month ≤ 31 := by
  unfold monthLength
  split
  case h_1 => split <;> omega
  all_goals omega

theorem toDays_ofDays (days : ℤ) : (ofDays days).toDays = days := by
  obtain ⟨_, _, _, r, h⟩ := exists_reckoning days
  rw [h, r.toDays_onDay]

theorem exists_ofDays (days : ℤ) : (ofDays days).Exists := by
  obtain ⟨_, _, _, r, h⟩ := exists_reckoning days
  exact h ▸ r.exists_onDay

end ContainerSizing.CivilDate
