import ContainerSizing.Proofs.Binary64.Order
import Mathlib.Algebra.Order.Round

namespace ContainerSizing.Binary64

open Float.Model Float.Model.UnpackedFloat

variable {x y : Float} {n : ℕ}

-- A half goes away from zero.
def nearestAway (q : ℚ) : ℤ :=
  if q < 0 then -round (-q) else round q

theorem nearestAway_of_nonneg {q : ℚ} (h : 0 ≤ q) : nearestAway q = round q := by
  rw [nearestAway, if_neg (not_lt.mpr h)]

theorem nearestAway_neg (q : ℚ) : nearestAway (-q) = -nearestAway q := by
  rw [nearestAway, nearestAway, neg_neg]
  rcases lt_trichotomy q 0 with h | rfl | h
  · rw [if_neg (by linarith), if_pos h, neg_neg]
  · simp
  · rw [if_pos (by linarith), if_neg (by linarith)]

@[simp] theorem nearestAway_intCast (n : ℤ) : nearestAway n = n := by
  rw [nearestAway, ← Int.cast_neg, round_intCast, round_intCast, neg_neg, ite_self]

@[simp] theorem nearestAway_natCast (n : ℕ) : nearestAway n = n := by
  exact_mod_cast nearestAway_intCast n

theorem nearestAway_monotone : Monotone nearestAway := by
  have of_nonneg {p q : ℚ} (hp : 0 ≤ p) (h : p ≤ q) : nearestAway p ≤ nearestAway q := by
    rw [nearestAway_of_nonneg hp, nearestAway_of_nonneg (hp.trans h), round_eq, round_eq]
    exact Int.floor_mono (by linarith)
  have hzero : nearestAway 0 = 0 := nearestAway_intCast 0
  intro p q h
  rcases le_total 0 p with hp | hp
  · exact of_nonneg hp h
  -- below zero the order is turned round twice
  · have hneg := of_nonneg le_rfl (neg_nonneg.mpr hp)
    rw [nearestAway_neg, hzero] at hneg
    rcases le_total q 0 with hq | hq
    · have := of_nonneg (neg_nonneg.mpr hq) (neg_le_neg h)
      rw [nearestAway_neg, nearestAway_neg] at this
      exact neg_le_neg_iff.mp this
    · have := of_nonneg le_rfl hq
      rw [hzero] at this
      omega

section Nearest

theorem numerator_div_denominator (x : Float) :
    ((parts x).numerator / (parts x).denominator : ℚ) = magnitude x := by
  rw [Parts.numerator, Parts.denominator, magnitude, Nat.shiftLeft_eq, Nat.one_shiftLeft]
  push_cast
  rw [div_eq_iff (by positivity), mul_assoc]
  congr 1
  rw [← zpow_natCast, ← zpow_natCast, ← zpow_add₀ two_ne_zero]
  congr 1
  omega

theorem nearest_parts (x : Float) : ((parts x).nearest : ℤ) = round (magnitude x) := by
  have hd : ((parts x).denominator : ℚ) ≠ 0 := by exact_mod_cast (parts x).denominator_pos.ne'
  have hq : magnitude x + 1 / 2 =
      (2 * (parts x).numerator + (parts x).denominator : ℕ) / (2 * (parts x).denominator : ℕ) := by
    rw [← numerator_div_denominator]
    push_cast
    field_simp
  rw [round_eq, hq, Rat.floor_natCast_div_natCast, Parts.nearest]
  rfl

theorem toNearest?_eq (h : x.isFinite) : toNearest? x = some (nearestAway (value x)) := by
  have := nearestAway_of_nonneg (magnitude_nonneg x)
  rw [toNearest?, if_pos h, value_eq_magnitude (isNumber_of_isFinite h)]
  simp only [nearest_parts, negative_parts, sign]
  cases isNegative x <;> simp [signum, nearestAway_neg, this]

theorem toNearest?_of_not_isFinite (h : ¬x.isFinite) : toNearest? x = none := by
  rw [toNearest?, if_neg h]

theorem toNearestNat_eq (limit : ℕ) (h : x.isFinite) :
    toNearestNat limit x = min (nearestAway (value x)).toNat limit := by
  rw [toNearestNat, toNearest?_eq h]

theorem toNearestNat_mono (limit : ℕ) (hx : x.isFinite) (hy : y.isFinite) (h : value x ≤ value y) :
    toNearestNat limit x ≤ toNearestNat limit y := by
  rw [toNearestNat_eq limit hx, toNearestNat_eq limit hy]
  have := nearestAway_monotone h
  omega

-- A tighter bound makes up for a wider one.
theorem toNearestNat_of_le {limit wider : ℕ} (x : Float) (h : limit ≤ wider) :
    toNearestNat limit x = min (toNearestNat wider x) limit := by
  unfold toNearestNat
  split
  · omega
  · split <;> omega

end Nearest

section Counts

-- A count of less than 54 bits has a number of its own.

theorem rounds_toFloat64 (n : UInt64) : Rounds (UnpackedFloat.ofUInt64 .binary64 n) n.toNat := by
  have h := rounds_normalize (n := n.toNat) (e := 0) (s := .positive)
  rwa [zpow_zero, mul_one, Int.cast_natCast] at h

theorem isFinite_and_value_toFloat64 {n : UInt64} (h : n.toNat < 2 ^ 53) :
    n.toFloat.isFinite ∧ value n.toFloat = n.toNat := by
  have hv := (rounds_toFloat64 n).value_eq.trans (rounded_eq_self (representable_natCast h.le))
  exact ⟨isFinite_of_value_eq (rounds_toFloat64 n).isNumber hv h.le, hv⟩

theorem ofNat_eq_mul (h : n < 2 ^ 53) : Float.ofNat n = n.toUInt64.toFloat * 1.0 := by
  change Float.ofScientific n false 0 = _
  rw [Float.ofScientific, dif_pos ⟨h, by norm_num⟩]
  rfl

theorem isFinite_and_value_ofNat (h : n < 2 ^ 53) :
    (Float.ofNat n).isFinite ∧ value (.ofNat n) = n := by
  have hn : n.toUInt64.toNat = n := UInt64.toNat_ofNat_of_lt' (h.trans (by norm_num [UInt64.size]))
  have ⟨hf, hv⟩ := isFinite_and_value_toFloat64 (n := n.toUInt64) (hn.symm ▸ h)
  rw [ofNat_eq_mul h]
  have hm : value (n.toUInt64.toFloat * 1.0) = n := by
    rw [value_mul hf rfl, hv, value_one, mul_one, hn]
    exact rounded_eq_self (representable_natCast h.le)
  exact ⟨isFinite_of_value_eq (isNumber_mul hf rfl) hm h.le, hm⟩

theorem isFinite_and_value_of_eq (h : x = .ofNat n) (hn : n < 2 ^ 53) : x.isFinite ∧ value x = n :=
  h ▸ isFinite_and_value_ofNat hn

-- A count of 32 bits leaves room for some twenty bits more.
theorem isFinite_and_value_toFloat_mul (count : UInt32) (h : n ≤ 2 ^ 20) :
    (count.toFloat * .ofNat n).isFinite ∧ value (count.toFloat * .ofNat n) = (count.toNat * n : ℕ) := by
  have hlt := count.toNat_lt
  have hle : count.toNat * n ≤ 2 ^ 32 * 2 ^ 20 := Nat.mul_le_mul hlt.le h
  have hf := isFinite_toFloat count
  have ⟨hn, hv⟩ := isFinite_and_value_ofNat (h.trans_lt (by norm_num))
  have hm : value (count.toFloat * .ofNat n) = (count.toNat * n : ℕ) := by
    rw [value_mul hf hn, value_toFloat, hv, ← Nat.cast_mul]
    exact rounded_eq_self (representable_natCast (by omega))
  exact ⟨isFinite_of_value_eq (isNumber_mul hf hn) hm (by omega), hm⟩

theorem toNearest?_of_value_eq (hx : IsNumber x) (h : value x = n) (hn : n ≤ 2 ^ 53) :
    toNearest? x = some (n : ℤ) := by
  rw [toNearest?_eq (isFinite_of_value_eq hx h hn), h, nearestAway_natCast]

end Counts

end ContainerSizing.Binary64
