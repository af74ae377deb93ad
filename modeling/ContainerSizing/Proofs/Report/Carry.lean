import ContainerSizing.Proofs.Report.Amount

namespace ContainerSizing.Report

open Binary64 Decimal

variable {x : Float} {q : ℚ}

theorem byteNumber_lt_iff (k : ℕ) (q : ℚ) :
    byteNumber k q < 1024 ↔ q < (1024 - if k = 0 then 1 / 2 else 1 / 200) * 1024 ^ k := by
  have hlt (places : ℕ) :
      nearest places (q / 1024 ^ k) < 1024 ↔ q / 1024 ^ k < 1024 - 1 / 2 / 10 ^ places := by
    rw [← Nat.cast_ofNat (R := ℚ), nearest_lt_iff (by decide)]
  have hplaces : (1 / 2 / 10 ^ (if k = 0 then 0 else 2) : ℚ) = if k = 0 then 1 / 2 else 1 / 200 := by
    split_ifs <;> norm_num
  rw [byteNumber, hlt, hplaces, div_lt_iff₀ (by positivity)]

theorem millicores_lt_iff (h : 0 ≤ q) : millicores q < 1000 ↔ rounded (q * 1000) < 1999 / 2 := by
  have hnonneg : 0 ≤ rounded (q * 1000) := rounded_nonneg (by positivity)
  have hfloor : ⌊rounded (q * 1000) + 1 / 2⌋ < 1000 ↔ rounded (q * 1000) < 1999 / 2 := by
    rw [Int.floor_lt, ← lt_sub_iff_add_lt]
    norm_num
  rw [millicores, nearestAway_of_nonneg hnonneg, round_eq, ← hfloor]
  have := Int.floor_nonneg.mpr (add_nonneg hnonneg (by norm_num : (0 : ℚ) ≤ 1 / 2))
  omega

-- The unit is chosen by the amount as it is, and only then is the number rounded.
theorem number_lt_iff (hx : x.isFinite) (h : 0.0 ≤ x) :
    (∃ k n, Fits k (value x) ∧ read? (bytesText x) = some (n, byteUnit k) ∧
      (k < 3 → n ≤ 1024 ∧
        (n < 1024 ↔ value x < (1024 - if k = 0 then 1 / 2 else 1 / 200) * 1024 ^ k))) ∧
    ∃ n unit, read? (coresText x) = some (n, unit) ∧ (1.0 ≤ x → unit = "") ∧
      (x < 1.0 → unit = "m" ∧ n ≤ 1000 ∧ (n < 1000 ↔ value (x * 1000.0) < 1999 / 2)) := by
  have hn := IsNonneg.of_zero_le h
  constructor
  case left =>
    have ⟨k, hk, hread⟩ := exists_fits hx
    exact ⟨k, _, hk, hread, fun hlt => ⟨byteNumber_le (hk.lt hlt).le, byteNumber_lt_iff k _⟩⟩
  case right =>
    by_cases hone : 1.0 ≤ x
    case pos =>
      have hsmall : ¬x < 1.0 := (Binary64.not_lt hn.isNumber (isNumber_of_isFinite rfl)).mpr hone
      exact ⟨_, _, read?_coresText hx hone, fun _ => rfl, fun hlt => absurd hlt hsmall⟩
    case neg =>
      have hlt := not_le.mp (mt (one_le_iff hn.isNumber).mpr hone)
      refine ⟨_, _, read?_coresText_of_lt hn hlt, fun hle => absurd hle hone, fun _ => ⟨rfl, ?_, ?_⟩⟩
      · exact_mod_cast millicores_le hlt.le
      · rw [value_mul_thousand hn hlt, ← millicores_lt_iff hn.nonneg]
        exact_mod_cast Iff.rfl

theorem number_lt_iff_wholeBytes :
    (1023.0 : Float).isFinite ∧ 0.0 ≤ (1023.0 : Float) ∧ bytesText 1023.0 = "1023B" ∧
    (∃ n, read? "1023B" = some (n, "B") ∧ n < 1024) ∧
    (0.25 : Float).isFinite ∧ 0.0 ≤ (0.25 : Float) ∧ coresText 0.25 = "250m" ∧
    ∃ n, read? "250m" = some (n, "m") ∧ n < 1000 := by
  have hwhole : 0.0 ≤ (1023.0 : Float) := by decide +kernel
  have hquarter : 0.0 ≤ (0.25 : Float) := by decide +kernel
  have hb : bytesText 1023.0 = "1023B" := by decide +kernel
  have hc : coresText 0.25 = "250m" := by decide +kernel
  have ⟨hf, hv⟩ : (1023.0 : Float).isFinite ∧ value 1023.0 = 1023 :=
    isFinite_and_value_of_eq (n := 1023) (by decide +kernel) (by norm_num)
  have ⟨_, hm⟩ : (0.25 * 1000.0 : Float).isFinite ∧ value (0.25 * 1000.0) = 250 :=
    isFinite_and_value_of_eq (n := 250) (by decide +kernel) (by norm_num)
  have ⟨⟨k, n, hk, hn, hnumber⟩, _⟩ := number_lt_iff hf hwhole
  obtain rfl : k = 0 := by
    have hzero : Fits 0 (value 1023.0) := ⟨by omega, by omega, fun _ => by rw [hv]; norm_num⟩
    exact Nat.le_zero.mp (hk.mono hzero le_rfl)
  have ⟨_, m, unit, hmread, _, hmillis⟩ := number_lt_iff (x := 0.25) rfl hquarter
  obtain ⟨rfl, _, hmlt⟩ := hmillis (by decide +kernel)
  rw [hb] at hn
  rw [hc] at hmread
  refine ⟨hf, hwhole, hb, ⟨n, hn, (hnumber (by omega)).right.mpr ?_⟩, rfl, hquarter, hc, m, hmread,
    hmlt.mpr ?_⟩
  · rw [hv]
    norm_num
  · rw [hm]
    norm_num

-- One amount right below each of the four units.
theorem not_forall_number_lt :
    read? (bytesText 1023.5) = some (1024, "B") ∧
    read? (bytesText 1048575.0) = some (1024, "Ki") ∧
    read? (bytesText 1073741823.0) = some (1024, "Mi") ∧
    read? (coresText 0.9996) = some (1000, "m") ∧
    ¬∀ x : Float, x.isFinite → 0.0 ≤ x →
      (∀ n unit, read? (bytesText x) = some (n, unit) → unit ∈ ["B", "Ki", "Mi"] → n < 1024) ∧
      ∀ n, read? (coresText x) = some (n, "m") → n < 1000 := by
  have hbytes : read? (bytesText 1023.5) = some (1024, "B") := by decide +kernel
  refine ⟨hbytes, by decide +kernel, by decide +kernel, by decide +kernel, fun h => ?_⟩
  have ⟨hlt, _⟩ := h 1023.5 rfl (by decide +kernel)
  exact (lt_irrefl _) (hlt 1024 "B" hbytes (by decide))

end ContainerSizing.Report
