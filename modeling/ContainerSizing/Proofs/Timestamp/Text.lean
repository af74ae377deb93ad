import ContainerSizing.Proofs.Decimal.Digits
import ContainerSizing.Proofs.Timestamp.Calendar
import ContainerSizing.Timestamp.Parser
import ContainerSizing.Timestamp.Printer

namespace ContainerSizing

namespace Timestamp

open Text
open Decimal (padded)

variable {c : Char} {rest : List Char} {n width : ℕ}

theorem isBlank_of_isDigit (h : c.isDigit) : isBlank c = false := by
  simp only [Char.isDigit, Bool.and_eq_true, decide_eq_true_eq, UInt32.le_iff_toNat_le,
    ge_iff_le] at h
  have : c.toNat = c.val.toNat := rfl
  simp only [isBlank, decide_eq_false_iff_not]
  simp at h
  omega

theorem dropBlank_cons (h : isBlank c = false) : dropBlank (c :: rest) = c :: rest :=
  List.dropWhile_cons_of_neg (by simp [h])

theorem exists_padded (width n : ℕ) :
    ∃ d ds, (padded width n).toList = d :: ds ∧ d.isDigit := by
  cases h : (padded width n).toList
  case nil =>
    have : 0 < (padded width n).toList.length := Decimal.length_padded_pos
    simp [h] at this
  case cons d ds =>
    exact ⟨d, ds, rfl, Decimal.isDigit_of_mem_padded (h ▸ List.mem_cons_self ..)⟩

theorem dropBlank_padded :
    dropBlank ((padded width n).toList ++ rest) = (padded width n).toList ++ rest := by
  obtain ⟨d, ds, h, hd⟩ := exists_padded width n
  rw [h, List.cons_append, dropBlank_cons (isBlank_of_isDigit hd)]

theorem number?_padded (hw : 0 < width) (h : n < 10 ^ width) :
    number? width ((padded width n).toList ++ rest) = some (n, rest) := by
  have hlen := Decimal.length_padded hw h
  have hread : DigitRun.read (padded width n).toList = ⟨n, (padded width n).toList.length, []⟩ := by
    have := @DigitRun.read_padded [] width n (by simp)
    rwa [List.append_nil] at this
  simp only [number?, dropBlank_padded]
  rw [List.take_left' hlen, List.drop_left' hlen, hread, if_neg (by simp [hlen, hw.ne']),
    List.nil_append]

theorem mark?_cons (h : isBlank c = false) : mark? c (c :: rest) = some rest := by
  rw [mark?, dropBlank_cons h]
  exact if_pos rfl

theorem unlimited_padded (hr : ∀ c ∈ rest.head?, c.isDigit = false) :
    year?.unlimited ((padded width n).toList ++ rest) = some (n, rest) := by
  have : (padded width n).toList.length ≠ 0 := Decimal.length_padded_pos.ne'
  simp only [year?.unlimited, DigitRun.read_padded width n hr, if_neg this]

theorem year?_padded (h : n < 10 ^ 4) :
    year? ((padded 4 n).toList ++ rest) = some ((n : ℤ), rest) := by
  obtain ⟨d, ds, hcons, hd⟩ := exists_padded 4 n
  have hyear : number? 4 ((padded 4 n).toList ++ rest) = some (n, rest) :=
    number?_padded (by omega) h
  rw [year?, dropBlank_padded]
  split
  case h_1 h' =>
    rw [hcons] at h'
    cases h'
    cases hd
  case h_2 h' =>
    rw [hcons] at h'
    cases h'
    cases hd
  case h_3 =>
    rw [hyear]
    rfl

theorem year?_minus (hr : ∀ c ∈ rest.head?, c.isDigit = false) :
    year? ('-' :: ((padded width n).toList ++ rest)) = some (-(n : ℤ), rest) := by
  rw [year?, dropBlank_cons (by decide)]
  simp only [unlimited_padded hr, Option.map_some]

theorem year?_plus (hr : ∀ c ∈ rest.head?, c.isDigit = false) :
    year? ('+' :: ((padded width n).toList ++ rest)) = some ((n : ℤ), rest) := by
  rw [year?, dropBlank_cons (by decide)]
  simp only [unlimited_padded hr, Option.map_some]

theorem year?_yearText (year : ℤ) (hr : ∀ c ∈ rest.head?, c.isDigit = false) :
    year? ((yearText year).toList ++ rest) = some (year, rest) := by
  rw [yearText]
  split_ifs with h hneg
  case pos => rw [year?_padded (by omega), Int.toNat_of_nonneg h.left]
  case pos =>
    rw [String.toList_append, show "-".toList = ['-'] from rfl, List.append_assoc,
      List.singleton_append, year?_minus hr, Int.ofNat_natAbs_of_nonpos hneg.le, neg_neg]
  case neg =>
    rw [String.toList_append, show "+".toList = ['+'] from rfl, List.append_assoc,
      List.singleton_append, year?_plus hr, Int.natAbs_of_nonneg (not_lt.mp hneg)]

-- Digits that are not written are zeros.
theorem fraction?_padded (hw : 0 < width) (hle : width ≤ 9) (h : n < 10 ^ width)
    (hr : ∀ c ∈ rest.head?, c.isDigit = false) :
    fraction? ('.' :: ((padded width n).toList ++ rest)) = some (n * 10 ^ (9 - width), rest) := by
  have hlen := Decimal.length_padded hw h
  have htake : ((padded width n).toList ++ rest).take 9 =
      (padded width n).toList ++ rest.take (9 - width) := by
    rw [List.take_append, hlen, List.take_of_length_le (by omega)]
  have hdrop : ((padded width n).toList ++ rest).drop 9 = rest.drop (9 - width) := by
    rw [List.drop_append, hlen, List.drop_of_length_le (by omega), List.nil_append]
  have hread : DigitRun.read ((padded width n).toList ++ rest.take (9 - width)) =
      ⟨n, (padded width n).toList.length, rest.take (9 - width)⟩ := by
    apply DigitRun.read_padded
    intro c hc
    rw [List.head?_take] at hc
    split at hc
    · cases hc
    · exact hr c hc
  have hstop : rest.dropWhile Char.isDigit = rest := by
    cases rest
    case nil => rfl
    case cons c rest => exact List.dropWhile_cons_of_neg (by simp [hr c rfl])
  simp only [fraction?, htake, hdrop, hread, hlen, if_neg hw.ne', List.take_append_drop, hstop]
  rfl

theorem fraction?_fractionText (t : Timestamp) (hr : ∀ c ∈ rest.head?, c.isDigit = false)
    (hdot : rest.head? ≠ some '.') :
    fraction? (t.fractionText.toList ++ rest) = some (t.nanos % nanosPerSecond, rest) := by
  have hlt : t.nanos % nanosPerSecond < 1000000000 := Nat.mod_lt _ (by decide)
  rw [fractionText]
  generalize t.nanos % nanosPerSecond = nanos at hlt
  have hlist (s : String) : ("." ++ s).toList ++ rest = '.' :: (s.toList ++ rest) := by
    rw [String.toList_append]
    rfl
  split_ifs with h₀ h₃ h₆
  case pos =>
    rw [String.toList_empty, List.nil_append, fraction?, h₀]
    rintro _ rfl
    exact hdot rfl
  case pos =>
    rw [hlist, fraction?_padded (by omega) (by omega) (by omega) hr]
    congr 2
    omega
  case pos =>
    rw [hlist, fraction?_padded (by omega) (by omega) (by omega) hr]
    congr 2
    omega
  case neg =>
    rw [hlist, fraction?_padded (by omega) (by omega) (by omega) hr]
    congr 2
    omega

theorem ofParts?_self (t : Timestamp) : ofParts? t.seconds t.nanos = some t :=
  dif_pos t.valid

theorem ofClock?_eq (t : Timestamp) :
    ofClock? (CivilDate.ofDays t.dayNumber) (t.secondOfDay / 3600) (t.secondOfDay / 60 % 60)
      (t.secondOfDay % 60 + t.nanos / nanosPerSecond) (t.nanos % nanosPerSecond) = some t := by
  have ⟨_, _, hnanos, hleap⟩ := t.valid
  have hdate := CivilDate.exists_ofDays t.dayNumber
  have hself := t.ofParts?_self
  have hday : t.dayNumber * 86400 + t.secondOfDay = t.seconds := by
    simp only [dayNumber, secondOfDay, secondsPerDay]
    omega
  have hlt : t.secondOfDay < 86400 := by
    simp only [secondOfDay, secondsPerDay]
    omega
  have hmod : t.secondOfDay % 60 = t.seconds % 60 := by omega
  simp only [nanosPerSecond] at *
  rw [ofClock?, if_pos ⟨hdate, by omega, by omega, by omega⟩, CivilDate.toDays_ofDays]
  simp only [secondsPerDay, nanosPerSecond]
  split_ifs with h
  case pos =>
    rw [← hself]
    congr 1 <;> omega
  case neg =>
    rw [← hself]
    congr 1 <;> omega

theorem toList_isoText (t : Timestamp) :
    t.isoText.toList =
      (yearText (CivilDate.ofDays t.dayNumber).year).toList ++ '-' ::
        ((padded 2 (CivilDate.ofDays t.dayNumber).month).toList ++ '-' ::
          ((padded 2 (CivilDate.ofDays t.dayNumber).day).toList ++ 'T' ::
            (t.hourText.toList ++ ':' :: (t.minuteText.toList ++ ':' ::
              (t.secondText.toList ++ (t.fractionText.toList ++ ['Z'])))))) := by
  simp only [isoText, dateText, clockText, String.toList_append, List.append_assoc,
    show "-".toList = ['-'] from rfl, show ":".toList = [':'] from rfl,
    show "T".toList = ['T'] from rfl, show "Z".toList = ['Z'] from rfl, List.cons_append,
    List.nil_append]

theorem ofText?_isoText (t : Timestamp) : ofText? t.isoText = some t := by
  have ⟨_, hmonth, _, hday⟩ := CivilDate.exists_ofDays t.dayNumber
  have := CivilDate.monthLength_le (CivilDate.ofDays t.dayNumber).year
    (CivilDate.ofDays t.dayNumber).month
  have hlt : t.secondOfDay < 86400 := by
    simp only [secondOfDay, secondsPerDay]
    omega
  have hnanos : t.nanos < 2 * 1000000000 := t.valid.right.right.left
  have hsecond : t.secondOfDay % 60 + t.nanos / nanosPerSecond < 100 := by
    simp only [nanosPerSecond]
    omega
  rw [ofText?, toList_isoText]
  refine Option.bind_eq_some_iff.mpr ⟨_, year?_yearText _ (by simp), ?_⟩
  refine Option.bind_eq_some_iff.mpr ⟨_, mark?_cons (by decide), ?_⟩
  refine Option.bind_eq_some_iff.mpr ⟨_, number?_padded (by omega) (by omega), ?_⟩
  refine Option.bind_eq_some_iff.mpr ⟨_, mark?_cons (by decide), ?_⟩
  refine Option.bind_eq_some_iff.mpr ⟨_, number?_padded (by omega) (by omega), ?_⟩
  refine Option.bind_eq_some_iff.mpr ⟨_, rfl, ?_⟩
  refine Option.bind_eq_some_iff.mpr ⟨_, number?_padded (by omega) (by omega), ?_⟩
  refine Option.bind_eq_some_iff.mpr ⟨_, mark?_cons (by decide), ?_⟩
  refine Option.bind_eq_some_iff.mpr ⟨_, number?_padded (by omega) (by omega), ?_⟩
  refine Option.bind_eq_some_iff.mpr ⟨_, mark?_cons (by decide), ?_⟩
  refine Option.bind_eq_some_iff.mpr ⟨_, number?_padded (by omega) (by omega), ?_⟩
  refine Option.bind_eq_some_iff.mpr ⟨_, fraction?_fractionText t (by simp) (by simp), ?_⟩
  refine Option.bind_eq_some_iff.mpr ⟨(0, []), by decide +kernel, ?_⟩
  refine Option.bind_eq_some_iff.mpr ⟨_, ofClock?_eq t, ?_⟩
  rw [Int.sub_zero]
  exact t.ofParts?_self

end Timestamp

end ContainerSizing
