import ContainerSizing.Proofs.Binary64.Finite
import ContainerSizing.Proofs.Decimal.Fixed
import ContainerSizing.Report.Amount

namespace ContainerSizing.Report

open Binary64 Decimal
open DigitRun (Denotes)
open Json.Parser (Ends IsTrimmed numeral? magnitude?)

variable {text short long unit : String} {ds es fs : List Char} {n m k : ℕ} {x y : Float}

section Reading

def read? (text : String) : Option (ℚ × String) :=
  (numeral? text.toList).map fun r => (r.1.denoted, String.ofList r.2)

def unitFactor? : String → Option ℚ
  | "" | "B" => some 1
  | "m" => some (1 / 1000)
  | "Ki" => some 1024
  | "Mi" => some (1024 ^ 2)
  | "Gi" => some (1024 ^ 3)
  | _ => none

-- The amount that a text stands for, in cores or in bytes.
def amount? (text : String) : Option ℚ :=
  (read? text).bind fun r => (unitFactor? r.2).map (r.1 * ·)

theorem read?_eq {numeral : Numeral}
    (h : numeral? (text.toList ++ unit.toList) = some (numeral, unit.toList)) :
    read? (text ++ unit) = some (numeral.denoted, unit) := by
  rw [read?, String.toList_append, h, Option.map_some, String.ofList_toList]

theorem read?_fixed (places : ℕ) (hx : x.isFinite) (hu : Ends unit.toList) :
    read? (fixed places x ++ unit) = some (nearest places (value x), unit) := by
  obtain ⟨n, hn, hq⟩ := numeral?_fixed places hx hu
  rw [read?_eq hn, hq]

theorem read?_toString (n : ℕ) (hu : Ends unit.toList) :
    read? (toString n ++ unit) = some ((n : ℚ), unit) := by
  have hsigned : signed false (toString n) = toString n := rfl
  have hn : numeral? ((signed false (toString n)).toList ++ unit.toList) = _ := Numeral.numeral?_digits hu
  rw [hsigned] at hn
  rw [read?_eq hn]
  simp [Numeral.denoted]

theorem read?_eq_magnitude? {tail : List Char} {numeral : Numeral} (hd : Denotes ds n)
    (hs : text.toList = ds ++ tail)
    (h : magnitude? false (ds ++ tail) = some (numeral, [])) : read? text = some (numeral.denoted, "") := by
  obtain ⟨d, ds, rfl, hdigit⟩ := hd.exists_cons
  have hn : numeral? ((signed false text).toList ++ []) = _ :=
    Json.Parser.numeral?_signed ⟨d, ds ++ tail, hs, hdigit⟩
  rw [signed, if_neg Bool.false_ne_true, List.append_nil, hs, h] at hn
  rw [read?, hs, hn]
  rfl

variable (hd : Denotes ds n) (hz : IsTrimmed ds)
include hd hz

theorem read?_whole (hs : text.toList = ds) : read? text = some ((n : ℚ), "") := by
  have hends : Ends [] := by simp [Ends]
  have h : magnitude? false (ds ++ []) = _ := Json.Parser.magnitude?_integral hd hz hends
  rw [read?_eq_magnitude? hd (hs.trans (List.append_nil ds).symm) h]
  simp [Numeral.denoted]

theorem read?_places (he : Denotes es m) (hs : text.toList = ds ++ '.' :: es) :
    read? text = some ((n + m / 10 ^ es.length : ℚ), "") := by
  have hends : Ends [] := by simp [Ends]
  have h : magnitude? false (ds ++ '.' :: (es ++ [])) = _ := Json.Parser.magnitude?_point hd hz he hends
  rw [List.append_nil] at h
  have hten : (powerOfTen es.length : ℚ) = 10 ^ es.length := by exact_mod_cast rfl
  rw [read?_eq_magnitude? hd hs h, Numeral.denoted]
  push_cast
  rw [hten, one_mul, zpow_neg, zpow_natCast, ← div_eq_mul_inv, add_div,
    mul_div_cancel_right₀ _ (by positivity)]

end Reading

section Trimming

-- `short` is `long` without the zeros at the end of its places, and without the point if no place stays.
structure Trims (long short : String) (whole places : List Char) : Prop where
  whole_ne_nil  : whole ≠ []
  digit         : ∀ c ∈ whole ++ places, c.isDigit
  no_last_zero  : places.getLast? ≠ some '0'
  long_eq       : ∃ k, long.toList = whole ++ '.' :: (places ++ List.replicate k '0')
  short_eq      : short.toList = whole ++ if places = [] then [] else '.' :: places

theorem exists_eq_append_zeros (es : List Char) :
    ∃ fs k, es = fs ++ List.replicate k '0' ∧ fs.getLast? ≠ some '0' := by
  induction es using List.reverseRecOn
  case nil => exact ⟨[], 0, rfl, by simp⟩
  case append_singleton es c hi =>
    by_cases hc : c = '0'
    case pos =>
      obtain ⟨fs, k, rfl, hl⟩ := hi
      refine ⟨fs, k + 1, ?_, hl⟩
      rw [List.replicate_succ', hc, List.append_assoc]
    case neg => exact ⟨es ++ [c], 0, by simp, by simpa using hc⟩

theorem toList_dropZeros (hs : text.toList = ds ++ '.' :: (fs ++ List.replicate k '0'))
    (hd : ∀ c ∈ ds ++ fs, c.isDigit) (hl : fs.getLast? ≠ some '0') :
    (dropZeros text).toList = ds ++ if fs = [] then [] else '.' :: fs := by
  have hpoint : ∀ c ∈ ds ++ fs, ¬c = '.' := by
    rintro c hc rfl
    exact absurd (hd '.' hc) (by decide)
  rw [dropZeros, String.toList_ofList, hs]
  simp only [List.reverse_append, List.reverse_cons, List.reverse_replicate, List.append_assoc]
  rw [List.dropWhile_append_of_pos (by simp)]
  rcases List.eq_nil_or_concat fs with rfl | ⟨fs, c, rfl⟩
  case inl =>
    -- the point goes, and stops at the digits before it
    have hstop : ds.reverse.dropWhile (· = '.') = ds.reverse := by
      refine List.dropWhile_eq_self_iff.mpr fun h => ?_
      simpa using hpoint _ (List.mem_append_left _ (List.mem_reverse.mp (List.getElem_mem h)))
    simp [hstop]
  case inr =>
    have hzero : ¬c = '0' := by simpa using hl
    have hstop : ¬c = '.' := hpoint c (by simp)
    simp [hzero, hstop]

theorem trims_dropZeros (hd : Denotes ds n) (he : ∀ c ∈ es, c.isDigit)
    (hs : text.toList = ds ++ '.' :: es) :
    ∃ fs, fs.length ≤ es.length ∧ Trims text (dropZeros text) ds fs := by
  obtain ⟨fs, k, rfl, hl⟩ := exists_eq_append_zeros es
  have hdigit : ∀ c ∈ ds ++ fs, c.isDigit := by
    intro c hc
    rcases List.mem_append.mp hc with hc | hc
    · exact hd.digit c hc
    · exact he c (List.mem_append_left _ hc)
  exact ⟨fs, by simp, List.ne_nil_of_length_pos hd.pos, hdigit, hl, ⟨k, hs⟩,
    toList_dropZeros hs hdigit hl⟩

-- Neither the zeros nor the point count.
theorem Trims.read?_eq (h : Trims long short ds fs) (hz : IsTrimmed ds) (hd : Denotes ds n)
    (hlong : long.toList ≠ ds ++ ['.']) : read? short = read? long := by
  obtain ⟨k, hk⟩ := h.long_eq
  have hs := h.short_eq
  by_cases hf : fs = []
  case pos =>
    subst hf
    cases k
    case zero => exact absurd hk hlong
    case succ k =>
      have hzeros : Denotes (List.replicate (k + 1) '0') 0 := (Denotes.toDigits 0).zeros k
      rw [if_pos rfl, List.append_nil] at hs
      rw [read?_whole hd hz hs, read?_places hd hz hzeros hk, Nat.cast_zero, zero_div, add_zero]
  case neg =>
    have hm : Denotes fs (Nat.ofDigitChars 10 fs 0) :=
      ⟨fun c hc => h.digit c (List.mem_append_right _ hc), List.length_pos_iff.mpr hf, rfl⟩
    rw [if_neg hf] at hs
    rw [read?_places hd hz hm hs, read?_places hd hz (hm.zeros k) hk, List.length_append,
      List.length_replicate, pow_add]
    push_cast
    rw [mul_comm (10 ^ fs.length : ℚ), mul_div_mul_left _ _ (by positivity)]

end Trimming

section Bytes

-- The units by the powers of 1024 that they stand for.
def byteUnit : ℕ → String
  | 0 => "B"
  | 1 => "Ki"
  | 2 => "Mi"
  | _ => "Gi"

-- The number in front of the unit: whole bytes, and two places in larger units.
def byteNumber (k : ℕ) (q : ℚ) : ℚ :=
  nearest (if k = 0 then 0 else 2) (q / 1024 ^ k)

-- The largest unit that goes into `q`.
structure Fits (k : ℕ) (q : ℚ) : Prop where
  le_three : k ≤ 3
  le       : 0 < k → 1024 ^ k ≤ q
  lt       : k < 3 → q < 1024 ^ (k + 1)

variable {j : ℕ} {p q : ℚ}

theorem Fits.mono (hp : Fits j p) (hq : Fits k q) (h : p ≤ q) : j ≤ k := by
  by_contra hlt
  have hle : q < p := by
    calc q
      _ < 1024 ^ (k + 1) := hq.lt (by have := hp.le_three; omega)
      _ ≤ 1024 ^ j := pow_le_pow_right₀ (by norm_num) (by omega)
      _ ≤ p := hp.le (by omega)
  exact hle.not_ge h

theorem byteNumber_mono (k : ℕ) (h : p ≤ q) : byteNumber k p ≤ byteNumber k q :=
  nearest_monotone _ (div_le_div_of_nonneg_right h (by positivity))

theorem byteNumber_le (h : q ≤ 1024 ^ (k + 1)) : byteNumber k q ≤ 1024 := by
  refine (byteNumber_mono k h).trans_eq ?_
  rw [byteNumber, pow_succ', mul_div_cancel_right₀ _ (by positivity)]
  exact_mod_cast nearest_natCast _ 1024

theorem le_byteNumber (h : 1024 ^ k ≤ q) : 1 ≤ byteNumber k q := by
  refine Eq.trans_le ?_ (byteNumber_mono k h)
  rw [byteNumber, div_self (by positivity)]
  exact_mod_cast (nearest_natCast _ 1).symm

-- Where the units differ, the larger one alone is more than what is shown in the smaller one.
theorem Fits.byteNumber_mul_le (hp : Fits j p) (hq : Fits k q) (h : p ≤ q) :
    byteNumber j p * 1024 ^ j ≤ byteNumber k q * 1024 ^ k := by
  rcases (hp.mono hq h).lt_or_eq with hlt | rfl
  case inr => exact mul_le_mul_of_nonneg_right (byteNumber_mono j h) (by positivity)
  case inl =>
    calc byteNumber j p * 1024 ^ j
      _ ≤ 1024 * 1024 ^ j := by
        have := hq.le_three
        exact mul_le_mul_of_nonneg_right (byteNumber_le (hp.lt (by omega)).le) (by positivity)
      _ = 1024 ^ (j + 1) := (pow_succ' ..).symm
      _ ≤ 1024 ^ k := pow_le_pow_right₀ (by norm_num) hlt
      _ ≤ byteNumber k q * 1024 ^ k :=
        le_mul_of_one_le_left (by positivity) (le_byteNumber (hq.le (by omega)))

theorem unitFactor?_byteUnit (h : k ≤ 3) : unitFactor? (byteUnit k) = some (1024 ^ k) := by
  interval_cases k <;> simp [byteUnit, unitFactor?]

theorem ends_byteUnit (k : ℕ) : Ends (byteUnit k).toList := by
  match k with
  | 0 | 1 | 2 | k + 3 => simp [byteUnit, Ends]

theorem isFinite_and_value_unit {u : Float} (h : u = .ofNat (1024 ^ k)) (hk : k ≤ 3) :
    u.isFinite ∧ value u = 1024 ^ k := by
  have hlt : 1024 ^ k < 2 ^ 53 := (Nat.pow_le_pow_right (by omega) hk).trans_lt (by norm_num)
  exact_mod_cast isFinite_and_value_of_eq h hlt

-- A unit that is a power of two is taken out without rounding.
theorem read?_quotient {u : Float} (hx : x.isFinite) (hu : u.isFinite ∧ value u = 1024 ^ k) (hk : k ≤ 3)
    (hpos : 0 < k) (hle : 1024 ^ k ≤ value x) :
    read? (fixed 2 (x / u) ++ byteUnit k) = some (byteNumber k (value x), byteUnit k) := by
  have ⟨huf, huv⟩ := hu
  have hone : (1 : ℚ) ≤ 1024 ^ k := one_le_pow₀ (by norm_num)
  have hn : IsNonneg x := ⟨isNumber_of_isFinite hx, by linarith⟩
  have hf : (x / u).isFinite := (hn.isFinite_div_iff huf (huv ▸ hone)).mpr hx
  have htwo : (1024 ^ k : ℚ) = 2 ^ (10 * k) := by rw [pow_mul]; norm_num
  have hv : value (x / u) = value x / 1024 ^ k := by
    rw [value_div hx huf (by rw [huv]; positivity), huv, htwo]
    exact rounded_eq_self ((representable_value x).div_two_pow (hone.trans hle) (by omega))
  rw [read?_fixed 2 hf (ends_byteUnit k), hv, byteNumber, if_neg hpos.ne']

theorem exists_fits (hx : x.isFinite) :
    ∃ k, Fits k (value x) ∧ read? (bytesText x) = some (byteNumber k (value x), byteUnit k) := by
  have hn := isNumber_of_isFinite hx
  have hkibi : kibi.isFinite ∧ value kibi = 1024 ^ 1 :=
    isFinite_and_value_unit (by decide +kernel) (by norm_num)
  have hmebi : mebi.isFinite ∧ value mebi = 1024 ^ 2 :=
    isFinite_and_value_unit (by decide +kernel) (by norm_num)
  have hgibi : gibi.isFinite ∧ value gibi = 1024 ^ 3 :=
    isFinite_and_value_unit (by decide +kernel) (by norm_num)
  have hreach {u : Float} {k : ℕ} (hu : u.isFinite ∧ value u = 1024 ^ k) :
      x ≥ u ↔ 1024 ^ k ≤ value x := by
    rw [ge_iff_le, le_iff_value_le (isNumber_of_isFinite hu.left) hn, hu.right]
  simp only [bytesText, hreach hkibi, hreach hmebi, hreach hgibi]
  split_ifs with h₃ h₂ h₁
  case pos =>
    have hread := read?_quotient hx hgibi le_rfl (by omega) h₃
    exact ⟨3, ⟨le_rfl, fun _ => h₃, by omega⟩, hread⟩
  case pos =>
    have hread := read?_quotient hx hmebi (by omega) (by omega) h₂
    exact ⟨2, ⟨by omega, fun _ => h₂, fun _ => by simpa using h₃⟩, hread⟩
  case pos =>
    have hread := read?_quotient hx hkibi (by omega) (by omega) h₁
    exact ⟨1, ⟨by omega, fun _ => h₁, fun _ => by simpa using h₂⟩, hread⟩
  case neg =>
    refine ⟨0, ⟨by omega, by omega, fun _ => by simpa using h₁⟩, ?_⟩
    rw [byteNumber, if_pos rfl, pow_zero, div_one]
    exact read?_fixed 0 hx (ends_byteUnit 0)

end Bytes

section Cores

variable {p q : ℚ}

def millicores (q : ℚ) : ℕ :=
  (nearestAway (rounded (q * 1000))).toNat

theorem rounded_mul_thousand_le (h : q ≤ 1) : rounded (q * 1000) ≤ 1000 := by
  have hthousand : rounded 1000 = 1000 := by
    exact_mod_cast rounded_eq_self (representable_natCast (n := 1000) (by norm_num))
  exact (rounded_monotone (by linarith)).trans_eq hthousand

theorem millicores_mono (h : p ≤ q) : millicores p ≤ millicores q :=
  Int.toNat_le_toNat (nearestAway_monotone (rounded_monotone (by linarith)))

theorem millicores_le (h : q ≤ 1) : millicores q ≤ 1000 := by
  have hle := nearestAway_monotone (rounded_mul_thousand_le h)
  have hthousand : nearestAway 1000 = 1000 := by exact_mod_cast nearestAway_natCast 1000
  rw [millicores]
  omega

-- Whole millicores below one core, and two places from there on.
def coreNumber (q : ℚ) : ℚ :=
  if q < 1 then millicores q / 1000 else nearest 2 q

theorem coreNumber_monotone : Monotone coreNumber := by
  intro p q h
  have hone : nearest 2 1 = 1 := by exact_mod_cast nearest_natCast 2 1
  rw [coreNumber, coreNumber]
  split_ifs with hp hq hq
  case pos =>
    exact div_le_div_of_nonneg_right (by exact_mod_cast millicores_mono h) (by norm_num)
  case neg =>
    calc (millicores p / 1000 : ℚ)
      _ ≤ 1 := (div_le_one (by norm_num)).mpr (by exact_mod_cast millicores_le hp.le)
      _ = nearest 2 1 := hone.symm
      _ ≤ nearest 2 q := nearest_monotone 2 (not_lt.mp hq)
  case pos => exact absurd (h.trans_lt hq) hp
  case neg => exact nearest_monotone 2 h

theorem isFinite_and_value_thousand : (1000.0 : Float).isFinite ∧ value 1000.0 = 1000 :=
  isFinite_and_value_of_eq (n := 1000) (by decide +kernel) (by norm_num)

theorem one_le_iff (hx : IsNumber x) : 1.0 ≤ x ↔ 1 ≤ value x := by
  rw [le_iff_value_le (isNumber_of_isFinite rfl) hx, value_one]

theorem lt_one_iff (hx : IsNumber x) : x < 1.0 ↔ value x < 1 := by
  rw [lt_iff_value_lt hx (isNumber_of_isFinite rfl), value_one]

section Small

variable (hx : IsNonneg x) (h : value x < 1)
include hx h

theorem value_mul_thousand : value (x * 1000.0) = rounded (value x * 1000) := by
  have ⟨hf, hv⟩ := isFinite_and_value_thousand
  have hx' : x.isFinite := hx.isFinite_of_le (y := 1.0) rfl (by rw [value_one]; exact h.le)
  rw [value_mul hx' hf, hv]

theorem coresText_of_lt : coresText x = toString (millicores (value x)) ++ "m" := by
  have ⟨hf, hv⟩ := isFinite_and_value_thousand
  have hsmall : ¬x ≥ 1.0 := mt (one_le_iff hx.isNumber).mp h.not_ge
  have hv' := value_mul_thousand hx h
  have hf' : (x * 1000.0).isFinite := by
    refine (hx.mul hf (by rw [hv]; norm_num)).isFinite_of_le hf ?_
    rw [hv', hv]
    exact rounded_mul_thousand_le h.le
  have hle : millicores (value x) ≤ UInt64.size - 1 :=
    (millicores_le h.le).trans (by norm_num [UInt64.size])
  rw [coresText, if_neg hsmall, toNearestNat_eq _ hf', hv', ← millicores, min_eq_left hle]

theorem read?_coresText_of_lt : read? (coresText x) = some ((millicores (value x) : ℚ), "m") := by
  have hends : Ends "m".toList := by simp [Ends]
  rw [coresText_of_lt hx h, read?_toString _ hends]

end Small

section Large

variable (hx : x.isFinite) (h : 1.0 ≤ x)
include hx h

theorem trims_coresText : ∃ whole places, places.length ≤ 2 ∧
    Trims (fixed 2 x) (coresText x) whole places ∧ read? (coresText x) = read? (fixed 2 x) := by
  have hn := isNumber_of_isFinite hx
  have hone := (one_le_iff hn).mp h
  have hpos : isNegative x = false := by
    rw [Bool.eq_false_iff, ne_eq, isNegative_iff hn (by linarith)]
    linarith
  have htext : fixed 2 x = pointed 2 (scaled 2 (parts x)) := by
    rw [fixed, write, if_neg (Bool.eq_false_iff.mp hn), if_pos hx, hpos]
    rfl
  have hs : (fixed 2 x).toList = _ := htext ▸ Numeral.toList_pointed (m := scaled 2 (parts x)) two_pos
  have hlen := Numeral.length_padded_mod (scaled 2 (parts x)) two_pos
  have hd := Denotes.toDigits (scaled 2 (parts x) / powerOfTen 2)
  obtain ⟨fs, hle, ht⟩ := trims_dropZeros hd (fun _ => isDigit_of_mem_padded) hs
  rw [coresText, if_pos h]
  refine ⟨_, fs, hle.trans hlen.le, ht, ht.read?_eq (Json.Parser.isTrimmed_toDigits _) hd ?_⟩
  intro hnil
  rw [hs] at hnil
  have := congrArg List.length hnil
  simp [hlen] at this

theorem read?_coresText : read? (coresText x) = some (nearest 2 (value x), "") := by
  have ⟨_, _, _, _, hread⟩ := trims_coresText hx h
  have hends : Ends "".toList := by simp [Ends]
  have hfixed := read?_fixed 2 hx hends
  rw [String.append_empty] at hfixed
  rw [hread, hfixed]

end Large

end Cores

section Amounts

theorem amount?_eq {number factor : ℚ} (h : read? text = some (number, unit))
    (hu : unitFactor? unit = some factor) : amount? text = some (number * factor) := by
  rw [amount?, h, Option.bind_some, hu, Option.map_some]

theorem amount?_bytesText (hx : x.isFinite) :
    ∃ k, Fits k (value x) ∧ amount? (bytesText x) = some (byteNumber k (value x) * 1024 ^ k) := by
  have ⟨k, hk, hread⟩ := exists_fits hx
  exact ⟨k, hk, amount?_eq hread (unitFactor?_byteUnit hk.le_three)⟩

theorem amount?_coresText (hx : IsNonneg x) (hf : x.isFinite) :
    amount? (coresText x) = some (coreNumber (value x)) := by
  rw [coreNumber]
  split_ifs with h
  case pos => rw [amount?_eq (read?_coresText_of_lt hx h) rfl, mul_one_div]
  case neg =>
    have h' := (one_le_iff hx.isNumber).mpr (not_lt.mp h)
    rw [amount?_eq (read?_coresText hf h') rfl, mul_one]

theorem texts_keep_value_and_order :
    (∀ x : Float, x.isFinite → 1.0 ≤ x →
      (∃ whole places, places.length ≤ 2 ∧ Trims (fixed 2 x) (coresText x) whole places) ∧
      read? (coresText x) = some (nearest 2 (value x), "") ∧
      read? (fixed 2 x) = some (nearest 2 (value x), "")) ∧
    (∀ x : Float, 0.0 ≤ x → x < 1.0 →
      coresText x = toString (nearestAway (value (x * 1000.0))).toNat ++ "m" ∧
      value (x * 1000.0) = rounded (value x * 1000)) ∧
    ∀ x y : Float, 0.0 ≤ x → x ≤ y → y.isFinite →
      (∃ p q, amount? (coresText x) = some p ∧ amount? (coresText y) = some q ∧ p ≤ q) ∧
      ∃ p q, amount? (bytesText x) = some p ∧ amount? (bytesText y) = some q ∧ p ≤ q := by
  refine ⟨?large, ?small, ?order⟩
  case large =>
    intro x hx h
    have ⟨whole, places, hle, ht, hread⟩ := trims_coresText hx h
    have hcores := read?_coresText hx h
    exact ⟨⟨whole, places, hle, ht⟩, hcores, hread.symm.trans hcores⟩
  case small =>
    intro x hx h
    have hn := IsNonneg.of_zero_le hx
    have hlt := (lt_one_iff hn.isNumber).mp h
    have hv := value_mul_thousand hn hlt
    exact ⟨hv ▸ coresText_of_lt hn hlt, hv⟩
  case order =>
    intro x y hx hxy hy
    have hle := value_le_of_le hxy
    have hnx := IsNonneg.of_zero_le hx
    have hny := IsNonneg.of_zero_le (Binary64.le_trans hx hxy)
    have hx' := hnx.isFinite_of_le hy hle
    have ⟨j, hj, hbx⟩ := amount?_bytesText hx'
    have ⟨k, hk, hby⟩ := amount?_bytesText hy
    have hcx := amount?_coresText hnx hx'
    have hcy := amount?_coresText hny hy
    exact ⟨⟨_, _, hcx, hcy, coreNumber_monotone hle⟩, _, _, hbx, hby, hj.byteNumber_mul_le hk hle⟩

-- On both sides of a unit, and with a zero before the point that has to stay.
theorem texts_keep_value_and_order_aroundUnits :
    (10.0 : Float).isFinite ∧ 1.0 ≤ (10.0 : Float) ∧ coresText 10.0 = "10" ∧
    read? "10" = some (nearest 2 (value 10.0), "") ∧
    0.0 ≤ (0.25 : Float) ∧ (0.25 : Float) < 1.0 ∧ coresText 0.25 = "250m" ∧
    toString (nearestAway (value (0.25 * 1000.0))).toNat ++ "m" = "250m" ∧
    0.0 ≤ (1023.5 : Float) ∧ (1023.5 : Float) ≤ 1024.0 ∧ (1024.0 : Float).isFinite ∧
    bytesText 1023.5 = "1024B" ∧ bytesText 1024.0 = "1.00Ki" ∧
    ∃ p q, amount? "1024B" = some p ∧ amount? "1.00Ki" = some q ∧ p ≤ q := by
  have ⟨hlarge, hsmall, horder⟩ := texts_keep_value_and_order
  have hten : coresText 10.0 = "10" := by decide +kernel
  have hquarter : coresText 0.25 = "250m" := by decide +kernel
  have hbelow : bytesText 1023.5 = "1024B" := by decide +kernel
  have hkibi : bytesText 1024.0 = "1.00Ki" := by decide +kernel
  have ⟨_, hread, _⟩ := hlarge 10.0 rfl (by decide +kernel)
  have ⟨htext, _⟩ := hsmall 0.25 (by decide +kernel) (by decide +kernel)
  have ⟨_, hbytes⟩ := horder 1023.5 1024.0 (by decide +kernel) (by decide +kernel) rfl
  rw [hten] at hread
  rw [hquarter] at htext
  rw [hbelow, hkibi] at hbytes
  exact ⟨rfl, by decide +kernel, hten, hread, by decide +kernel, by decide +kernel, hquarter, htext.symm,
    by decide +kernel, by decide +kernel, rfl, hbelow, hkibi, hbytes⟩

end Amounts

end ContainerSizing.Report
