import ContainerSizing.Decimal.Numeral
import Mathlib.Tactic

namespace ContainerSizing

namespace Decimal

variable {c : Char} {n width : ℕ}

theorem toList_pushn (s : String) (c : Char) (n : ℕ) :
    (s.pushn c n).toList = s.toList ++ List.replicate n c := by
  induction n
  case zero => simp [String.pushn, Nat.repeat]
  case succ n hi =>
    have : s.pushn c (n + 1) = (s.pushn c n).push c := rfl
    rw [this, String.toList_push, hi, List.replicate_succ', List.append_assoc]

theorem toList_padded (width n : ℕ) :
    (padded width n).toList =
      List.replicate (width - (Nat.toDigits 10 n).length) '0' ++ Nat.toDigits 10 n := by
  simp only [padded, String.toList_append, toList_pushn, Nat.toString_eq_ofList_toDigits,
    String.length_ofList, String.toList_ofList]
  rfl

theorem isDigit_of_mem_padded (h : c ∈ (padded width n).toList) : c.isDigit := by
  rw [toList_padded, List.mem_append] at h
  rcases h with h | h
  · rw [List.eq_of_mem_replicate h]
    decide
  · exact Nat.isDigit_of_mem_toDigits (by omega) le_rfl h

theorem ofDigitChars_padded : Nat.ofDigitChars 10 (padded width n).toList 0 = n := by
  rw [toList_padded, Nat.ofDigitChars_append]
  simp

theorem length_padded_pos : 0 < (padded width n).toList.length := by
  rw [toList_padded, List.length_append]
  have : 0 < (Nat.toDigits 10 n).length := Nat.length_toDigits_pos
  omega

theorem length_padded (hw : 0 < width) (h : n < 10 ^ width) :
    (padded width n).toList.length = width := by
  have := (Nat.length_toDigits_le_iff (by omega) hw).mpr h
  rw [toList_padded, List.length_append, List.length_replicate]
  omega

-- A number is written without zeros in front, but for zero itself.
theorem head?_toDigits (h : 0 < n) : (Nat.toDigits 10 n).head? ≠ some '0' := by
  induction n using Nat.strong_induction_on
  case h n hi =>
    rw [Nat.toDigits_eq_if (by omega)]
    split
    case isTrue hlt =>
      have hd : ∀ k < 10, 0 < k → k.digitChar ≠ '0' := by decide
      simpa using hd n hlt h
    case isFalse =>
      obtain ⟨d, ds, hds⟩ := List.exists_cons_of_length_pos (Nat.length_toDigits_pos (b := 10) (n := n / 10))
      have := hi (n / 10) (by omega) (by omega)
      rw [hds] at this ⊢
      exact this

end Decimal

namespace DigitRun

variable {ds rest : List Char}

-- A run of digits ends where no digit follows.
theorem extend_append (value length : ℕ) (hd : ∀ c ∈ ds, c.isDigit)
    (hr : ∀ c ∈ rest.head?, c.isDigit = false) :
    extend value length (ds ++ rest) = ⟨Nat.ofDigitChars 10 ds value, length + ds.length, rest⟩ := by
  induction ds generalizing value length
  case nil =>
    cases rest
    case nil => rfl
    case cons c rest => simp [extend, hr c rfl]
  case cons d ds hi =>
    have ⟨hd, hds⟩ := List.forall_mem_cons.mp hd
    rw [List.cons_append, extend, if_pos hd, hi _ _ hds, Nat.ofDigitChars_cons, digitValue,
      List.length_cons, Nat.mul_comm, Nat.add_assoc, Nat.add_comm 1]

theorem read_padded (width n : ℕ) (hr : ∀ c ∈ rest.head?, c.isDigit = false) :
    read ((Decimal.padded width n).toList ++ rest) =
      ⟨n, (Decimal.padded width n).toList.length, rest⟩ := by
  rw [read, extend_append 0 0 (fun _ => Decimal.isDigit_of_mem_padded) hr,
    Decimal.ofDigitChars_padded, Nat.zero_add]

-- Digits that stand for a number.
structure Denotes (ds : List Char) (n : ℕ) : Prop where
  digit : ∀ c ∈ ds, c.isDigit
  pos   : 0 < ds.length
  value : Nat.ofDigitChars 10 ds 0 = n

namespace Denotes

variable {n m : ℕ} {es : List Char}

theorem read (h : Denotes ds n) (hr : ∀ c ∈ rest.head?, c.isDigit = false) :
    read (ds ++ rest) = ⟨n, ds.length, rest⟩ := by
  rw [DigitRun.read, extend_append 0 0 h.digit hr, h.value, Nat.zero_add]

theorem padded (width n : ℕ) : Denotes (Decimal.padded width n).toList n :=
  ⟨fun _ => Decimal.isDigit_of_mem_padded, Decimal.length_padded_pos, Decimal.ofDigitChars_padded⟩

theorem toDigits (n : ℕ) : Denotes (Nat.toDigits 10 n) n :=
  ⟨fun _ => Nat.isDigit_of_mem_toDigits (by omega) le_rfl, Nat.length_toDigits_pos,
    Nat.ofDigitChars_toDigits (by omega) le_rfl⟩

-- Zeros behind the digits multiply.
theorem zeros (h : Denotes ds n) (k : ℕ) : Denotes (ds ++ List.replicate k '0') (10 ^ k * n) where
  digit c hc := by
    rcases List.mem_append.mp hc with hc | hc
    · exact h.digit c hc
    · rw [List.eq_of_mem_replicate hc]
      decide
  pos := by
    rw [List.length_append]
    exact Nat.add_pos_left h.pos _
  value := by rw [Nat.ofDigitChars_append, h.value, Nat.ofDigitChars_replicate_zero]

theorem exists_cons (h : Denotes ds n) : ∃ d es, ds = d :: es ∧ d.isDigit := by
  obtain ⟨d, es, rfl⟩ := List.exists_cons_of_length_pos h.pos
  exact ⟨d, es, rfl, h.digit d List.mem_cons_self⟩

end Denotes

end DigitRun

end ContainerSizing
