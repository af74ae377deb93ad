import ContainerSizing.Proofs.Json.Text

namespace ContainerSizing.Json

-- Values with a written form throughout.
inductive IsWritten : Json → Prop
  | null : IsWritten .null
  | bool (b : Bool) : IsWritten (.bool b)
  | number {n : Numeral} (h : n.IsWritten) : IsWritten (.number n)
  | text (s : String) : IsWritten (.text s)
  | array {vs : List Json} (h : ∀ v ∈ vs, IsWritten v) : IsWritten (.array vs)
  | object {ms : List (Option String × Json)} (hn : ∀ m ∈ ms, m.1.isSome)
    (h : ∀ m ∈ ms, IsWritten m.2) : IsWritten (.object ms)

theorem isWritten_float (x : Float) : (float x).IsWritten := by
  rw [float]
  split
  case isTrue => exact .number (Numeral.isWritten_ofFloat x)
  case isFalse => exact .null

theorem isWritten_text (s : String) : (text s).IsWritten :=
  .text s

theorem isWritten_natural (n : ℕ) : (natural n).IsWritten :=
  .number (Numeral.isWritten_ofNat n)

theorem isWritten_record {fields : List (String × Json)} (h : ∀ f ∈ fields, f.2.IsWritten) :
    (record fields).IsWritten := by
  refine .object ?_ ?_
  all_goals
    intro m hm
    obtain ⟨f, hf, rfl⟩ := List.mem_map.mp hm
  · rfl
  · exact h f hf

section Printing

open Printer

variable {v : Json} {vs : List Json} {ms : List (Option String × Json)} {lead gap : List Char}
variable {print : Json → List Char}

theorem isSpaces_nil : Parser.IsSpaces [] := by
  simp [Parser.IsSpaces]

theorem isSpaces_newline (level : ℕ) : Parser.IsSpaces (newline level) := by
  simp only [Parser.IsSpaces, newline, List.forall_mem_cons]
  refine ⟨by decide, ?_⟩
  intro c hc
  rw [List.eq_of_mem_replicate hc]
  decide

theorem isLiteral_quoted (s : String) : Parser.IsLiteral (some s) (quoted s) := by
  refine ⟨_, rfl, fun rest => ?_⟩
  rw [List.append_assoc]
  exact Parser.literal?_escape s rest

theorem isNumeral_text {n : Numeral} (h : n.IsWritten) : Parser.IsNumeral n n.text.toList :=
  fun _ hr => n.numeral?_text h hr

-- Items and members are texts if each of them is, however they are led.

theorem isText_items {join : List Json → List Char} (hone : ∀ v, join [v] = lead ++ print v)
    (hmore : ∀ v w vs, join (v :: w :: vs) = lead ++ print v ++ ',' :: join (w :: vs))
    (hl : Parser.IsSpaces lead) (h : ∀ v ∈ vs, Parser.IsText (.value v) (print v))
    (hvs : vs ≠ []) : Parser.IsText (.items vs) (join vs) := by
  induction vs
  case nil => exact absurd rfl hvs
  case cons v vs hi =>
    have ⟨hv, hrest⟩ := List.forall_mem_cons.mp h
    have hv := Parser.IsText.space hl hv
    cases vs
    case nil =>
      rw [hone]
      exact .item hv
    case cons w vs =>
      rw [hmore]
      simpa using Parser.IsText.items hv isSpaces_nil (hi hrest (by simp))

theorem isText_members {join : List (Option String × Json) → List Char}
    (hone : ∀ m : Option String × Json, join [m] = lead ++ (stringChars m.1 ++ ':' :: (gap ++ print m.2)))
    (hmore : ∀ (m m' : Option String × Json) ms, join (m :: m' :: ms) =
      lead ++ (stringChars m.1 ++ ':' :: (gap ++ print m.2 ++ ',' :: join (m' :: ms))))
    (hl : Parser.IsSpaces lead) (hg : Parser.IsSpaces gap) (hn : ∀ m ∈ ms, m.1.isSome)
    (h : ∀ m ∈ ms, Parser.IsText (.value m.2) (print m.2)) (hms : ms ≠ []) :
    Parser.IsText (.members ms) (join ms) := by
  induction ms
  case nil => exact absurd rfl hms
  case cons m ms hi =>
    obtain ⟨k, v⟩ := m
    have ⟨hk, hnames⟩ := List.forall_mem_cons.mp hn
    have ⟨hv, hrest⟩ := List.forall_mem_cons.mp h
    obtain ⟨name, rfl⟩ := Option.isSome_iff_exists.mp hk
    have hv := Parser.IsText.space hg hv
    cases ms
    case nil =>
      rw [hone]
      refine .space hl ?_
      simpa [stringChars] using Parser.IsText.member (isLiteral_quoted name) isSpaces_nil hv
    case cons m' ms =>
      rw [hmore]
      refine .space hl ?_
      simpa [stringChars] using Parser.IsText.members (isLiteral_quoted name) isSpaces_nil hv
        isSpaces_nil (hi hnames hrest (by simp))

theorem isText_chars (h : v.IsWritten) : Parser.IsText (.value v) (chars v) := by
  induction h
  case null => exact .word .null
  case bool b => cases b <;> constructor <;> constructor
  case number n h => exact .number (isNumeral_text h)
  case text s => exact .string (isLiteral_quoted s)
  case array vs _ hi =>
    rw [chars]
    by_cases hvs : vs = []
    case pos =>
      subst hvs
      exact .array₀ isSpaces_nil
    case neg =>
      have hitems : Parser.IsText (.items vs) (itemChars vs) :=
        isText_items (by simp [itemChars]) (by simp [itemChars]) isSpaces_nil hi hvs
      simpa using Parser.IsText.array hitems isSpaces_nil
  case object ms hn _ hi =>
    rw [chars]
    by_cases hms : ms = []
    case pos =>
      subst hms
      exact .object₀ isSpaces_nil
    case neg =>
      have hmembers : Parser.IsText (.members ms) (memberChars ms) :=
        isText_members (by simp [memberChars]) (by simp [memberChars]) isSpaces_nil isSpaces_nil hn hi
          hms
      simpa using Parser.IsText.object hmembers isSpaces_nil

theorem isText_indented (h : v.IsWritten) (level : ℕ) :
    Parser.IsText (.value v) (indented level v) := by
  induction h generalizing level
  case null => exact .word .null
  case bool b => cases b <;> constructor <;> constructor
  case number n h => exact .number (isNumeral_text h)
  case text s => exact .string (isLiteral_quoted s)
  case array vs _ hi =>
    cases vs
    case nil => exact .array₀ isSpaces_nil
    case cons v vs =>
      rw [indented]
      refine .array ?_ (isSpaces_newline level)
      exact isText_items (by simp [indentedItems]) (by simp [indentedItems])
        (isSpaces_newline (level + 1)) (fun v hv => hi v hv (level + 1)) (by simp)
      simp
  case object ms hn _ hi =>
    cases ms
    case nil => exact .object₀ isSpaces_nil
    case cons m ms =>
      rw [indented]
      refine .object ?_ (isSpaces_newline level)
      have hgap : Parser.IsSpaces [' '] := by simp [Parser.IsSpaces, Parser.isSpace]
      exact isText_members (by simp [indentedMembers]) (by simp [indentedMembers])
        (isSpaces_newline (level + 1)) hgap hn (fun m hm => hi m hm (level + 1)) (by simp)
      simp

end Printing

-- Both printers write texts of the value that is read back.

theorem parse?_render {v : Json} (h : v.IsWritten) : parse? v.render = some v :=
  parse?_eq_some (by rw [render, String.toList_ofList]; exact isText_chars h)

theorem parse?_renderIndented {v : Json} (h : v.IsWritten) : parse? v.renderIndented = some v :=
  parse?_eq_some (by rw [renderIndented, String.toList_ofList]; exact isText_indented h 0)

end ContainerSizing.Json
