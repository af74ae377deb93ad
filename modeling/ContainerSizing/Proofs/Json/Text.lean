import ContainerSizing.Json.Printer
import ContainerSizing.Proofs.Json.Numeral

namespace ContainerSizing.Json

namespace Parser

section Strings

variable {c : Char} {cs rest : List Char} {ps : List Piece}

theorem hexDigit?_hexDigit : ∀ n < 16, hexDigit? (Printer.hexDigit n) = some n := by
  decide

theorem ofHex?_hexDigit (h : c.toNat < 32) :
    Piece.ofHex? '0' '0' (Printer.hexDigit (c.toNat / 16)) (Printer.hexDigit (c.toNat % 16)) =
      some (.char c) := by
  have hzero : hexDigit? '0' = some 0 := by decide
  have hn : c.toNat / 16 * 16 + c.toNat % 16 = c.toNat := Nat.div_add_mod' ..
  have hlow : ¬0xD800 ≤ c.toNat := by omega
  have hhigh : ¬0xDC00 ≤ c.toNat := by omega
  simp [Piece.ofHex?, hzero, hexDigit?_hexDigit _ (show c.toNat / 16 < 16 by omega),
    hexDigit?_hexDigit _ (show c.toNat % 16 < 16 by omega), hn, Piece.ofUnit, hlow, hhigh]

-- A character is one piece of a literal, however it is written.
theorem pieces?_escape (h : pieces? cs = some (ps, rest)) :
    pieces? (Printer.escape c ++ cs) = some (.char c :: ps, rest) := by
  unfold Printer.escape
  split_ifs with hquote hback hn hr ht hb hf hlow
  case pos => simp [pieces?, escaped?, h, hquote]
  case pos => simp [pieces?, escaped?, h, hback]
  case pos => simp [pieces?, escaped?, h, hn]
  case pos => simp [pieces?, escaped?, h, hr]
  case pos => simp [pieces?, escaped?, h, ht]
  case pos => simp [pieces?, escaped?, h, hb]
  case pos => simp [pieces?, escaped?, h, hf]
  case pos => simp [pieces?, ofHex?_hexDigit hlow, h]
  case neg => simp [pieces?, hlow, hback, h]

theorem literal?_escape (s : String) (rest : List Char) :
    literal? (s.toList.flatMap Printer.escape ++ '"' :: rest) = some (some s, rest) := by
  have hp (cs : List Char) :
      pieces? (cs.flatMap Printer.escape ++ '"' :: rest) = some (cs.map .char, rest) := by
    induction cs
    case nil => simp [pieces?]
    case cons c cs hi =>
      rw [List.flatMap_cons, List.append_assoc, pieces?_escape hi, List.map_cons]
  have hj (cs : List Char) : join? (cs.map .char) = some cs := by
    induction cs
    case nil => rfl
    case cons c cs hi => rw [List.map_cons, join?, hi, Option.map_some]
  simp [literal?, hp, hj]

end Strings

section Space

variable {c : Char} {cs s rest : List Char} {fuel : ℕ}

def IsSpaces (s : List Char) : Prop :=
  ∀ c ∈ s, isSpace c

theorem dropSpace_append (hs : IsSpaces s) : dropSpace (s ++ cs) = dropSpace cs :=
  List.dropWhile_append_of_pos hs

theorem dropSpace_cons (hc : isSpace c = false) : dropSpace (c :: cs) = c :: cs :=
  List.dropWhile_cons_of_neg (by simp [hc])

theorem dropSpace_spaces_cons (hs : IsSpaces s) (hc : isSpace c = false) :
    dropSpace (s ++ c :: cs) = c :: cs := by
  rw [dropSpace_append hs, dropSpace_cons hc]

theorem isSpace_of_numeral (hc : c.isDigit ∨ c = '-') : isSpace c = false := by
  rcases hc with hc | rfl
  case inr => decide
  case inl =>
    rw [isSpace, decide_eq_false_iff_not]
    rintro (rfl | rfl | rfl | rfl) <;> cases hc

-- Nothing goes on with a numeral behind space, or behind a mark that sets values apart.
theorem ends_append (hs : IsSpaces s) (hc : c ∈ [',', ']', '}']) : Ends (s ++ c :: rest) := by
  have hend : ∀ d, isSpace d ∨ d ∈ [',', ']', '}'] → d.isDigit = false ∧ d ≠ '.' ∧ d ≠ 'e' ∧ d ≠ 'E' := by
    intro d hd
    simp only [isSpace, decide_eq_true_eq, List.mem_cons, List.not_mem_nil, or_false] at hd
    rcases hd with (rfl | rfl | rfl | rfl) | rfl | rfl | rfl <;> decide
  cases s
  case nil =>
    intro d hd
    obtain rfl : c = d := by simpa using hd
    exact hend c (.inr hc)
  case cons e s =>
    intro d hd
    obtain rfl : e = d := by simpa using hd
    exact hend e (.inl (hs e List.mem_cons_self))

-- Space in front of a value is passed over, as it is in front of items and members.

theorem value_append (hs : IsSpaces s) : value fuel (s ++ cs) = value fuel cs := by
  cases fuel
  case zero => rfl
  case succ fuel => rw [value, value, dropSpace_append hs]

theorem items_append (hs : IsSpaces s) : items fuel (s ++ cs) = items fuel cs := by
  cases fuel
  case zero => rfl
  case succ fuel => rw [items, items, value_append hs]

theorem members_append (hs : IsSpaces s) : members fuel (s ++ cs) = members fuel cs := by
  cases fuel
  case zero => rfl
  case succ fuel => rw [members, members, dropSpace_append hs]

end Space

section Steps

-- One step of the parser for each way in which a text goes on.

variable {c : Char} {cs cs' s s' rest : List Char} {fuel : ℕ} {v : Json} {vs : List Json}
variable {k : Option String} {ms : List (Option String × Json)}

-- A text that begins, behind space, with something other than a closing bracket.
def Begins (cs : List Char) : Prop :=
  ∃ s c cs', cs = s ++ c :: cs' ∧ IsSpaces s ∧ isSpace c = false ∧ c ≠ ']' ∧ c ≠ '}'

theorem Begins.append (h : Begins cs) (rest : List Char) : Begins (cs ++ rest) := by
  obtain ⟨s, c, cs', rfl, h⟩ := h
  exact ⟨s, c, cs' ++ rest, by simp, h⟩

theorem value_emptyArray (hs : IsSpaces s) :
    value (fuel + 1) ('[' :: (s ++ ']' :: rest)) = .ok (.array [], rest) := by
  rw [value, dropSpace_cons (by decide)]
  simp only [dropSpace_spaces_cons hs (show isSpace ']' = false by decide)]

theorem value_emptyObject (hs : IsSpaces s) :
    value (fuel + 1) ('{' :: (s ++ '}' :: rest)) = .ok (.object [], rest) := by
  rw [value, dropSpace_cons (by decide)]
  simp only [dropSpace_spaces_cons hs (show isSpace '}' = false by decide)]

theorem value_array (hb : Begins cs) (h : items fuel cs = .ok (vs, rest)) :
    value (fuel + 1) ('[' :: cs) = .ok (.array vs, rest) := by
  obtain ⟨s, c, cs', rfl, hs, hc, hclose, _⟩ := hb
  rw [items_append hs] at h
  rw [value, dropSpace_cons (by decide)]
  simp only [dropSpace_spaces_cons hs hc]
  split
  case h_1 heq => exact absurd (List.cons.inj heq).left hclose
  case h_2 => rw [h]

theorem value_object (hb : Begins cs) (h : members fuel cs = .ok (ms, rest)) :
    value (fuel + 1) ('{' :: cs) = .ok (.object ms, rest) := by
  obtain ⟨s, c, cs', rfl, hs, hc, _, hclose⟩ := hb
  rw [members_append hs] at h
  rw [value, dropSpace_cons (by decide)]
  simp only [dropSpace_spaces_cons hs hc]
  split
  case h_1 heq => exact absurd (List.cons.inj heq).left hclose
  case h_2 => rw [h]

theorem items_last (h : value fuel cs = .ok (v, s ++ ']' :: rest)) (hs : IsSpaces s) :
    items (fuel + 1) cs = .ok ([v], rest) := by
  rw [items, h]
  simp only [dropSpace_spaces_cons hs (show isSpace ']' = false by decide)]

theorem items_cons (h : value fuel cs = .ok (v, s ++ ',' :: cs')) (hs : IsSpaces s)
    (h' : items fuel cs' = .ok (vs, rest)) : items (fuel + 1) cs = .ok (v :: vs, rest) := by
  rw [items, h]
  simp only [dropSpace_spaces_cons hs (show isSpace ',' = false by decide), h']

theorem members_last (hk : literal? cs = some (k, s ++ ':' :: cs')) (hs : IsSpaces s)
    (h : value fuel cs' = .ok (v, s' ++ '}' :: rest)) (hs' : IsSpaces s') :
    members (fuel + 1) ('"' :: cs) = .ok ([(k, v)], rest) := by
  rw [members, dropSpace_cons (by decide)]
  simp only [hk, dropSpace_spaces_cons hs (show isSpace ':' = false by decide), h,
    dropSpace_spaces_cons hs' (show isSpace '}' = false by decide)]

theorem members_cons {cs'' : List Char} (hk : literal? cs = some (k, s ++ ':' :: cs'))
    (hs : IsSpaces s) (h : value fuel cs' = .ok (v, s' ++ ',' :: cs'')) (hs' : IsSpaces s')
    (h' : members fuel cs'' = .ok (ms, rest)) :
    members (fuel + 1) ('"' :: cs) = .ok ((k, v) :: ms, rest) := by
  rw [members, dropSpace_cons (by decide)]
  simp only [hk, dropSpace_spaces_cons hs (show isSpace ':' = false by decide), h,
    dropSpace_spaces_cons hs' (show isSpace ',' = false by decide), h']

end Steps

section Grammar

-- What a stretch of text stands for.
inductive Part where
  | value (v : Json)
  | items (vs : List Json)
  | members (ms : List (Option String × Json))

-- The words of values without numbers, strings or parts.
inductive IsWord : Json → List Char → Prop
  | null  : IsWord .null ['n', 'u', 'l', 'l']
  | true  : IsWord (.bool true) ['t', 'r', 'u', 'e']
  | false : IsWord (.bool false) ['f', 'a', 'l', 's', 'e']

def IsNumeral (n : Numeral) (cs : List Char) : Prop :=
  ∀ rest, Ends rest → numeral? (cs ++ rest) = some (n, rest)

-- A literal with its quotes.
def IsLiteral (s : Option String) (cs : List Char) : Prop :=
  ∃ body, cs = '"' :: body ∧ ∀ rest, literal? (body ++ rest) = some (s, rest)

-- The texts of a part, with space between its own parts.
inductive IsText : Part → List Char → Prop
  | space {p s cs} (hs : IsSpaces s) (h : IsText p cs) : IsText p (s ++ cs)
  | word {v cs} (h : IsWord v cs) : IsText (.value v) cs
  | number {n cs} (h : IsNumeral n cs) : IsText (.value (.number n)) cs
  | string {s cs} (h : IsLiteral s cs) : IsText (.value (.string s)) cs
  | array₀ {s} (hs : IsSpaces s) : IsText (.value (.array [])) ('[' :: (s ++ [']']))
  | array {vs cs s} (h : IsText (.items vs) cs) (hs : IsSpaces s) :
    IsText (.value (.array vs)) ('[' :: (cs ++ s ++ [']']))
  | object₀ {s} (hs : IsSpaces s) : IsText (.value (.object [])) ('{' :: (s ++ ['}']))
  | object {ms cs s} (h : IsText (.members ms) cs) (hs : IsSpaces s) :
    IsText (.value (.object ms)) ('{' :: (cs ++ s ++ ['}']))
  | item {v cs} (h : IsText (.value v) cs) : IsText (.items [v]) cs
  | items {v vs cs s cs'} (h : IsText (.value v) cs) (hs : IsSpaces s) (h' : IsText (.items vs) cs') :
    IsText (.items (v :: vs)) (cs ++ s ++ ',' :: cs')
  | member {k v cs s cs'} (hk : IsLiteral k cs) (hs : IsSpaces s) (h : IsText (.value v) cs') :
    IsText (.members [(k, v)]) (cs ++ s ++ ':' :: cs')
  | members {k v ms cs s cs' s' cs''} (hk : IsLiteral k cs) (hs : IsSpaces s)
    (h : IsText (.value v) cs') (hs' : IsSpaces s') (h' : IsText (.members ms) cs'') :
    IsText (.members ((k, v) :: ms)) (cs ++ s ++ ':' :: (cs' ++ s' ++ ',' :: cs''))

theorem IsNumeral.begins {n : Numeral} {cs : List Char} (h : IsNumeral n cs) :
    ∃ c cs', cs = c :: cs' ∧ (c.isDigit ∨ c = '-') := by
  have hread := h [] (by simp [Ends])
  rw [List.append_nil] at hread
  clear h
  cases cs
  case nil => cases hread
  case cons c cs =>
    refine ⟨c, cs, rfl, ?_⟩
    by_contra hn
    have ⟨hd, hm⟩ := not_or.mp hn
    simp [numeral?, hm, magnitude?, DigitRun.read, DigitRun.extend, hd] at hread

theorem begins_cons {c : Char} (cs : List Char) (hc : isSpace c = false) (h : c ≠ ']') (h' : c ≠ '}') :
    Begins (c :: cs) :=
  ⟨[], c, cs, rfl, by simp [IsSpaces], hc, h, h'⟩

theorem IsText.begins {p : Part} {cs : List Char} (h : IsText p cs) : Begins cs := by
  induction h
  case space hs _ hi =>
    obtain ⟨s', c, cs', rfl, hs', h⟩ := hi
    exact ⟨_, c, cs', (List.append_assoc ..).symm, List.forall_mem_append.mpr ⟨hs, hs'⟩, h⟩
  case word h => cases h <;> exact begins_cons _ (by decide) (by decide) (by decide)
  case number h =>
    obtain ⟨c, cs, rfl, hc⟩ := h.begins
    exact begins_cons _ (isSpace_of_numeral hc) (by rintro rfl; simp at hc) (by rintro rfl; simp at hc)
  case string h =>
    obtain ⟨body, rfl, _⟩ := h
    exact begins_cons _ (by decide) (by decide) (by decide)
  case array₀ | array | object₀ | object =>
    exact begins_cons _ (by decide) (by decide) (by decide)
  case item hi => exact hi
  case items hi _ =>
    rw [List.append_assoc]
    exact hi.append _
  case member hk _ _ _ | members hk _ _ _ _ _ _ =>
    obtain ⟨body, rfl, _⟩ := hk
    exact begins_cons _ (by decide) (by decide) (by decide)

theorem IsText.length_pos {p : Part} {cs : List Char} (h : IsText p cs) : 0 < cs.length := by
  obtain ⟨s, c, cs, rfl, _⟩ := h.begins
  simp

section Scalars

variable {v : Json} {n : Numeral} {s : Option String} {cs rest : List Char} {fuel : ℕ}

theorem value_word (h : IsWord v cs) : value (fuel + 1) (cs ++ rest) = .ok (v, rest) := by
  cases h <;> rw [value] <;> rfl

theorem value_number (h : IsNumeral n cs) (hr : Ends rest) :
    value (fuel + 1) (cs ++ rest) = .ok (.number n, rest) := by
  have hread := h rest hr
  obtain ⟨c, cs, rfl, hc⟩ := h.begins
  rw [List.cons_append] at hread ⊢
  rw [value, dropSpace_cons (isSpace_of_numeral hc)]
  split
  case h_7 => simp only [hread]
  case h_1 heq | h_2 heq | h_3 heq | h_4 heq | h_5 heq | h_6 heq =>
    cases heq
    simp at hc

theorem value_string (h : IsLiteral s cs) :
    value (fuel + 1) (cs ++ rest) = .ok (.string s, rest) := by
  obtain ⟨body, rfl, hread⟩ := h
  rw [List.cons_append, value, dropSpace_cons (by decide)]
  simp only [hread rest]

end Scalars

-- What the parser finds in the text of a part, given enough steps.
def Part.IsRead (cs : List Char) : Part → Prop
  | value v => ∀ fuel rest, 2 * cs.length ≤ fuel + 1 → Ends rest →
      Parser.value (fuel + 1) (cs ++ rest) = .ok (v, rest)
  | items vs => ∀ fuel s rest, 2 * cs.length ≤ fuel → IsSpaces s →
      Parser.items (fuel + 1) (cs ++ (s ++ ']' :: rest)) = .ok (vs, rest)
  | members ms => ∀ fuel s rest, 2 * cs.length ≤ fuel → IsSpaces s →
      Parser.members (fuel + 1) (cs ++ (s ++ '}' :: rest)) = .ok (ms, rest)

-- Each part takes one step more than what it is made of, and its text is longer.
theorem IsText.isRead {p : Part} {cs : List Char} (h : IsText p cs) : p.IsRead cs := by
  induction h
  case space p s cs hs _ hi =>
    cases p
    case value =>
      intro fuel rest hf hr
      rw [List.length_append] at hf
      rw [List.append_assoc, value_append hs, hi fuel rest (by omega) hr]
    case items =>
      intro fuel s' rest hf hs'
      rw [List.length_append] at hf
      rw [List.append_assoc, items_append hs, hi fuel s' rest (by omega) hs']
    case members =>
      intro fuel s' rest hf hs'
      rw [List.length_append] at hf
      rw [List.append_assoc, members_append hs, hi fuel s' rest (by omega) hs']
  case word h => exact fun _ _ _ _ => value_word h
  case number h => exact fun _ _ _ hr => value_number h hr
  case string h => exact fun _ _ _ _ => value_string h
  case array₀ hs =>
    intro fuel rest _ _
    simpa using value_emptyArray hs
  case object₀ hs =>
    intro fuel rest _ _
    simpa using value_emptyObject hs
  case array vs cs s h hs hi =>
    intro fuel rest hf _
    simp only [List.length_cons, List.length_append] at hf
    obtain ⟨fuel, rfl⟩ := Nat.exists_eq_add_one_of_ne_zero (show fuel ≠ 0 by omega)
    have := value_array (h.begins.append _) (hi fuel s rest (by omega) hs)
    simpa using this
  case object ms cs s h hs hi =>
    intro fuel rest hf _
    simp only [List.length_cons, List.length_append] at hf
    obtain ⟨fuel, rfl⟩ := Nat.exists_eq_add_one_of_ne_zero (show fuel ≠ 0 by omega)
    have := value_object (h.begins.append _) (hi fuel s rest (by omega) hs)
    simpa using this
  case item v cs h hi =>
    intro fuel s rest hf hs
    have := h.length_pos
    obtain ⟨fuel, rfl⟩ := Nat.exists_eq_add_one_of_ne_zero (show fuel ≠ 0 by omega)
    exact items_last (hi fuel _ (by omega) (ends_append hs (by simp))) hs
  case items v vs cs s cs' _ hs _ hi hi' =>
    intro fuel s' rest hf hs'
    simp only [List.length_append, List.length_cons] at hf
    obtain ⟨fuel, rfl⟩ := Nat.exists_eq_add_one_of_ne_zero (show fuel ≠ 0 by omega)
    have := items_cons (hi fuel _ (by omega) (ends_append hs (by simp))) hs
      (hi' fuel s' rest (by omega) hs')
    simpa using this
  case member k v cs s cs' hk hs _ hi =>
    intro fuel s' rest hf hs'
    simp only [List.length_append, List.length_cons] at hf
    obtain ⟨fuel, rfl⟩ := Nat.exists_eq_add_one_of_ne_zero (show fuel ≠ 0 by omega)
    obtain ⟨body, rfl, hread⟩ := hk
    have := members_last (hread _) hs
      (hi fuel (s' ++ '}' :: rest) (by omega) (ends_append hs' (by simp))) hs'
    simpa using this
  case members k v ms cs s cs' s' cs'' hk hs _ hs' _ hi hi' =>
    intro fuel s'' rest hf hs''
    simp only [List.length_append, List.length_cons] at hf
    obtain ⟨fuel, rfl⟩ := Nat.exists_eq_add_one_of_ne_zero (show fuel ≠ 0 by omega)
    obtain ⟨body, rfl, hread⟩ := hk
    have := members_cons (hread _) hs (hi fuel _ (by omega) (ends_append hs' (by simp))) hs'
      (hi' fuel s'' rest (by omega) hs'')
    simpa using this

end Grammar

end Parser

-- Whatever the space between its parts, a text is read as the value that it stands for.
theorem parse?_eq_some {v : Json} {s : String} (h : Parser.IsText (.value v) s.toList) :
    parse? s = some v := by
  have hf : 2 * s.toList.length ≤ 2 * s.length + 1 + 1 := by rw [String.length_toList]; omega
  have hv := h.isRead _ [] hf (by simp [Parser.Ends])
  rw [List.append_nil] at hv
  rw [parse?, parseFirst, hv]
  rfl

end ContainerSizing.Json
