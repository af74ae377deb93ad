import ContainerSizing.Json.Parser
import ContainerSizing.Proofs.Decimal.Digits
import ContainerSizing.Proofs.Decimal.Shortest

namespace ContainerSizing

theorem Decimal.toList_toString (n : ℕ) : (toString n).toList = Nat.toDigits 10 n := by
  rw [Nat.toString_eq_ofList_toDigits, String.toList_ofList]

namespace Json.Parser

open DigitRun (Denotes)

variable {ds es rest rest' : List Char} {n m : ℕ} {negative : Bool} {power : ℤ} {power? : Option ℤ}

-- What may stand behind a numeral: nothing that goes on with it.
def Ends (rest : List Char) : Prop :=
  ∀ c ∈ rest.head?, c.isDigit = false ∧ c ≠ '.' ∧ c ≠ 'e' ∧ c ≠ 'E'

-- Digits without needless zeros in front.
def IsTrimmed (ds : List Char) : Prop :=
  ds.length = 1 ∨ ds.head? ≠ some '0'

theorem isTrimmed_toDigits (n : ℕ) : IsTrimmed (Nat.toDigits 10 n) := by
  cases n
  case zero => exact .inl rfl
  case succ n => exact .inr (Decimal.head?_toDigits n.succ_pos)

section Parts

-- The parts of a numeral, each read up to what follows it.

theorem decimals?_point (h : Denotes es n) (hr : ∀ c ∈ rest.head?, c.isDigit = false) :
    decimals? ('.' :: (es ++ rest)) = some (some ⟨n, es.length, rest⟩, rest) := by
  simp [decimals?, h.read hr, h.pos.ne']

theorem decimals?_of_ne (hr : rest.head? ≠ some '.') : decimals? rest = some (none, rest) := by
  unfold decimals?
  split
  case h_1 => exact absurd rfl hr
  case h_2 => rfl

theorem exponent?_of_ends (hr : Ends rest) : exponent? rest = some (none, rest) := by
  cases rest
  case nil => rfl
  case cons c rest =>
    have ⟨_, _, he, hE⟩ := hr c rfl
    simp [exponent?, he, hE]

theorem exponent?_power (hr : ∀ c ∈ rest.head?, c.isDigit = false) :
    exponent? ('e' :: ((toString power).toList ++ rest)) = some (some power, rest) := by
  unfold exponent?
  simp only [true_or, reduceIte]
  cases power
  case ofNat k =>
    have hl : (toString (Int.ofNat k)).toList = Nat.toDigits 10 k := Decimal.toList_toString k
    have hread := (Denotes.toDigits k).read hr
    obtain ⟨d, ds, hds, hd⟩ := (Denotes.toDigits k).exists_cons
    rw [hl]
    rw [hds, List.cons_append] at hread ⊢
    -- the first digit is no sign
    have hminus : d ≠ '-' := by rintro rfl; cases hd
    have hplus : d ≠ '+' := by rintro rfl; cases hd
    simp [hminus, hplus, hread]
  case negSucc k =>
    have hl : (toString (Int.negSucc k)).toList = '-' :: Nat.toDigits 10 (k + 1) := by
      change ("-" ++ toString (k + 1)).toList = _
      rw [String.toList_append, Decimal.toList_toString]
      rfl
    have hread := (Denotes.toDigits (k + 1)).read hr
    have hpos := (Denotes.toDigits (k + 1)).pos
    rw [hl]
    simp [hread, hpos.ne', Int.negSucc_eq]

end Parts

section Magnitude

variable (hd : Denotes ds n) (hz : IsTrimmed ds)
include hd hz

theorem magnitude?_of_none {tail : List Char} (ht : ∀ c ∈ tail.head?, c.isDigit = false)
    (hdec : decimals? tail = some (none, rest')) (hexp : exponent? rest' = some (power?, rest)) :
    magnitude? negative (ds ++ tail) =
      some (⟨negative, n, power?.getD 0, power?.isNone⟩, rest) := by
  have hread := hd.read ht
  have hne : ds ≠ [] := List.ne_nil_of_length_pos hd.pos
  have hzero : 1 < ds.length → ¬ds.head? = some '0' := fun h => hz.resolve_left h.ne'
  simpa [magnitude?, hread, hdec, hexp, hne] using hzero

theorem magnitude?_of_some {tail : List Char} {run : DigitRun}
    (ht : ∀ c ∈ tail.head?, c.isDigit = false) (hdec : decimals? tail = some (some run, rest'))
    (hexp : exponent? rest' = some (power?, rest)) :
    magnitude? negative (ds ++ tail) =
      some (⟨negative, n * Decimal.powerOfTen run.length + run.value, power?.getD 0 - run.length,
        false⟩, rest) := by
  have hread := hd.read ht
  have hne : ds ≠ [] := List.ne_nil_of_length_pos hd.pos
  have hzero : 1 < ds.length → ¬ds.head? = some '0' := fun h => hz.resolve_left h.ne'
  simpa [magnitude?, hread, hdec, hexp, hne] using hzero

-- The four forms of a numeral, by whether there is a point and whether there is a power.

theorem magnitude?_integral (hr : Ends rest) :
    magnitude? negative (ds ++ rest) = some (⟨negative, n, 0, true⟩, rest) :=
  magnitude?_of_none hd hz (fun c hc => (hr c hc).left)
    (decimals?_of_ne fun h => (hr _ h).right.left rfl) (exponent?_of_ends hr)

theorem magnitude?_point (he : Denotes es m) (hr : Ends rest) :
    magnitude? negative (ds ++ '.' :: (es ++ rest)) =
      some (⟨negative, n * Decimal.powerOfTen es.length + m, -es.length, false⟩, rest) := by
  have h : magnitude? negative (ds ++ '.' :: (es ++ rest)) = _ :=
    magnitude?_of_some hd hz (by simp) (decimals?_point he fun c hc => (hr c hc).left)
      (exponent?_of_ends hr)
  simpa using h

theorem magnitude?_power (hr : Ends rest) :
    magnitude? negative (ds ++ 'e' :: ((toString power).toList ++ rest)) =
      some (⟨negative, n, power, false⟩, rest) :=
  magnitude?_of_none hd hz (by simp) (decimals?_of_ne (by simp))
    (exponent?_power fun c hc => (hr c hc).left)

theorem magnitude?_point_power (he : Denotes es m) (hr : Ends rest) :
    magnitude? negative (ds ++ '.' :: (es ++ 'e' :: ((toString power).toList ++ rest))) =
      some (⟨negative, n * Decimal.powerOfTen es.length + m, power - es.length, false⟩, rest) :=
  magnitude?_of_some hd hz (by simp) (decimals?_point he (by simp))
    (exponent?_power fun c hc => (hr c hc).left)

end Magnitude

theorem numeral?_signed {s : String} (h : ∃ d ds, s.toList = d :: ds ∧ d.isDigit) :
    numeral? ((Decimal.signed negative s).toList ++ rest) = magnitude? negative (s.toList ++ rest) := by
  obtain ⟨d, ds, hs, hd⟩ := h
  cases negative
  case true =>
    rw [Decimal.signed, if_pos rfl, String.toList_append]
    rfl
  case false =>
    rw [Decimal.signed, if_neg (by simp), hs]
    unfold numeral?
    split
    case h_1 h =>
      cases h
      cases hd
    case h_2 => rfl

end Json.Parser

namespace Numeral

open DigitRun (Denotes)
open Json.Parser

variable {n : Numeral} {rest : List Char}

-- Whole numbers are written without an exponent.
def IsWritten (n : Numeral) : Prop :=
  n.integral → n.exponent = 0

section Text

theorem toList_pointed {k m : ℕ} (hk : 0 < k) :
    (Decimal.pointed k m).toList = Nat.toDigits 10 (m / Decimal.powerOfTen k) ++ '.' ::
      (Decimal.padded k (m % Decimal.powerOfTen k)).toList := by
  rw [Decimal.pointed, if_neg hk.ne', String.toList_append, String.toList_append,
    Decimal.toList_toString, List.append_assoc]
  rfl

theorem exists_cons_toDigits {s : String} {m : ℕ} {cs : List Char}
    (h : s.toList = Nat.toDigits 10 m ++ cs) : ∃ d ds, s.toList = d :: ds ∧ d.isDigit := by
  obtain ⟨d, ds, hd, hdigit⟩ := (Denotes.toDigits m).exists_cons
  rw [h, hd]
  exact ⟨d, ds ++ cs, rfl, hdigit⟩

theorem length_padded_mod (m : ℕ) {k : ℕ} (hk : 0 < k) :
    (Decimal.padded k (m % Decimal.powerOfTen k)).toList.length = k :=
  Decimal.length_padded hk (Nat.mod_lt m (Decimal.powerOfTen_pos k))

variable {negative : Bool} {m k : ℕ} {power : ℤ}

-- The forms in which a numeral is written.

theorem numeral?_digits (hr : Ends rest) :
    numeral? ((Decimal.signed negative (toString m)).toList ++ rest) =
      some (⟨negative, m, 0, true⟩, rest) := by
  have hl : (toString m).toList = Nat.toDigits 10 m ++ [] := by
    rw [Decimal.toList_toString, List.append_nil]
  rw [numeral?_signed (exists_cons_toDigits hl), hl, List.append_nil,
    magnitude?_integral (Denotes.toDigits m) (isTrimmed_toDigits m) hr]

theorem numeral?_pointed (hk : 0 < k) (hr : Ends rest) :
    numeral? ((Decimal.signed negative (Decimal.pointed k m)).toList ++ rest) =
      some (⟨negative, m, -k, false⟩, rest) := by
  have hl := toList_pointed (m := m) hk
  have hlen := length_padded_mod m hk
  have hm : magnitude? negative _ = _ :=
    magnitude?_point (Denotes.toDigits (m / Decimal.powerOfTen k)) (isTrimmed_toDigits _)
      (Denotes.padded k (m % Decimal.powerOfTen k)) hr
  rw [hlen, Nat.div_add_mod'] at hm
  rw [numeral?_signed (exists_cons_toDigits hl), hl, List.append_assoc, List.cons_append, hm]

theorem numeral?_power (hr : Ends rest) :
    numeral? ((Decimal.signed negative (toString m ++ "e" ++ toString power)).toList ++ rest) =
      some (⟨negative, m, power, false⟩, rest) := by
  have hl : (toString m ++ "e" ++ toString power).toList =
      Nat.toDigits 10 m ++ 'e' :: (toString power).toList := by
    rw [String.toList_append, String.toList_append, Decimal.toList_toString, List.append_assoc]
    rfl
  rw [numeral?_signed (exists_cons_toDigits hl), hl, List.append_assoc, List.cons_append,
    magnitude?_power (Denotes.toDigits m) (isTrimmed_toDigits m) hr]

theorem numeral?_pointed_power (hk : 0 < k) (hr : Ends rest) :
    numeral? ((Decimal.signed negative (Decimal.pointed k m ++ "e" ++ toString power)).toList ++ rest) =
      some (⟨negative, m, power - k, false⟩, rest) := by
  have hl : (Decimal.pointed k m ++ "e" ++ toString power).toList =
      Nat.toDigits 10 (m / Decimal.powerOfTen k) ++ '.' ::
        ((Decimal.padded k (m % Decimal.powerOfTen k)).toList ++ 'e' :: (toString power).toList) := by
    rw [String.toList_append, String.toList_append, toList_pointed hk]
    simp
  have hlen := length_padded_mod m hk
  have hm : magnitude? negative (_ ++ '.' :: (_ ++ 'e' :: ((toString power).toList ++ rest))) = _ :=
    magnitude?_point_power (Denotes.toDigits (m / Decimal.powerOfTen k)) (isTrimmed_toDigits _)
      (Denotes.padded k (m % Decimal.powerOfTen k)) hr
  rw [hlen, Nat.div_add_mod'] at hm
  rw [numeral?_signed (exists_cons_toDigits hl), hl]
  simpa using hm

-- A numeral is read back as it was written.
theorem numeral?_text (h : n.IsWritten) (hr : Ends rest) :
    numeral? (n.text.toList ++ rest) = some (n, rest) := by
  obtain ⟨negative, m, e, integral⟩ := n
  have hpos : 0 < (toString m).length := by
    rw [← String.length_toList, Decimal.toList_toString]
    exact Nat.length_toDigits_pos
  cases integral
  case true =>
    obtain rfl : e = 0 := h rfl
    exact numeral?_digits hr
  case false =>
    simp only [text, Bool.false_eq_true, reduceIte]
    split_ifs with hpoint hsize
    case pos =>
      have he : -((-e).toNat : ℤ) = e := by omega
      have hk : 0 < (-e).toNat := by omega
      rw [numeral?_pointed hk hr, he]
    case pos =>
      have he : ((toString m).length + e - 1 : ℤ) = e := by omega
      rw [he]
      exact numeral?_power hr
    case neg =>
      have he : ((toString m).length + e - 1 - ((toString m).length - 1 : ℕ) : ℤ) = e := by omega
      have hk : 0 < (toString m).length - 1 := by omega
      rw [numeral?_pointed_power hk hr, he]

end Text

theorem isWritten_ofNat (n : ℕ) : (ofNat n).IsWritten :=
  fun _ => rfl

theorem isWritten_ofFloat (x : Float) : (ofFloat x).IsWritten := by
  have hi : (ofFloat x).integral = false := by
    simp only [ofFloat]
    split <;> rfl
  simp [IsWritten, hi]

end Numeral

end ContainerSizing
