import ContainerSizing.Json.Basic

namespace ContainerSizing.Json

namespace Parser

def isSpace (c : Char) : Bool :=
  c = ' ' ∨ c = '\t' ∨ c = '\n' ∨ c = '\r'

def dropSpace (cs : List Char) : List Char :=
  cs.dropWhile isSpace

-- What is left of `cs` behind `word`.
def behind? : (word cs : List Char) → Option (List Char)
  | [], cs => some cs
  | w :: ws, c :: cs => if w = c then behind? ws cs else none
  | _ :: _, [] => none

-- A part of a string literal; escapes beyond the first plane come in two halves.
inductive Piece where
  | char (c : Char)
  | high (bits : Nat)
  | low (bits : Nat)

def hexDigit? (c : Char) : Option Nat :=
  if c.isDigit then some (c.toNat - '0'.toNat)
  else if 'a' ≤ c ∧ c ≤ 'f' then some (c.toNat - 'a'.toNat + 10)
  else if 'A' ≤ c ∧ c ≤ 'F' then some (c.toNat - 'A'.toNat + 10)
  else none

def Piece.ofUnit (n : Nat) : Piece :=
  if 0xD800 ≤ n ∧ n < 0xDC00 then .high (n - 0xD800)
  else if 0xDC00 ≤ n ∧ n < 0xE000 then .low (n - 0xDC00)
  else .char (Char.ofNat n)

def Piece.ofHex? (a b c d : Char) : Option Piece := do
  let a ← hexDigit? a
  let b ← hexDigit? b
  let c ← hexDigit? c
  let d ← hexDigit? d
  some (.ofUnit (((a * 16 + b) * 16 + c) * 16 + d))

-- The character that a single letter behind the backslash stands for.
def escaped? : Char → Option Char
  | '"' => some '"'
  | '\\' => some '\\'
  | '/' => some '/'
  | 'b' => some '\x08'
  | 'f' => some '\x0c'
  | 'n' => some '\n'
  | 'r' => some '\r'
  | 't' => some '\t'
  | _ => none

-- The rest of a literal behind its opening quote; control characters must be escaped.
def pieces? : List Char → Option (List Piece × List Char)
  | [] => none
  | '"' :: cs => some ([], cs)
  | '\\' :: 'u' :: a :: b :: c :: d :: cs =>
    match Piece.ofHex? a b c d, pieces? cs with
    | some piece, some (ps, rest) => some (piece :: ps, rest)
    | _, _ => none
  | '\\' :: e :: cs =>
    match escaped? e, pieces? cs with
    | some c, some (ps, rest) => some (.char c :: ps, rest)
    | _, _ => none
  | c :: cs =>
    if c.toNat < 32 ∨ c = '\\' then none
    else (pieces? cs).map fun (ps, rest) => (.char c :: ps, rest)

-- Joins the halves of pairs; a half that stands alone leaves no text.
def join? : List Piece → Option (List Char)
  | [] => some []
  | .char c :: ps => (join? ps).map (c :: ·)
  | .high h :: .low l :: ps => (join? ps).map (Char.ofNat (0x10000 + h * 1024 + l) :: ·)
  | .high _ :: _ => none
  | .low _ :: _ => none

def literal? (cs : List Char) : Option (Option String × List Char) :=
  (pieces? cs).map fun (ps, rest) => ((join? ps).map String.ofList, rest)

-- An exponent, if one follows; `none` when it has no digits.
def exponent? : List Char → Option (Option Int × List Char)
  | c :: cs =>
    if c = 'e' ∨ c = 'E' then
      let (negative, cs) :=
        match cs with
        | '-' :: cs => (true, cs)
        | '+' :: cs => (false, cs)
        | cs => (false, cs)
      let run := DigitRun.read cs
      if run.length = 0 then none
      else some (some (if negative then -(run.value : Int) else run.value), run.rest)
    else
      some (none, c :: cs)
  | [] => some (none, [])

-- Digits behind a point, if one follows; `none` when there are none.
def decimals? : List Char → Option (Option DigitRun × List Char)
  | '.' :: cs =>
    let run := DigitRun.read cs
    if run.length = 0 then none else some (some run, run.rest)
  | cs => some (none, cs)

def magnitude? (negative : Bool) (cs : List Char) : Option (Numeral × List Char) := do
  let whole := DigitRun.read cs
  -- no leading zeros
  if whole.length = 0 ∨ (whole.length > 1 ∧ cs.head? = some '0') then none
  let (decimals, cs) ← decimals? whole.rest
  let (power, cs) ← exponent? cs
  let (mantissa, places) :=
    match decimals with
    | some run => (whole.value * Decimal.powerOfTen run.length + run.value, run.length)
    | none => (whole.value, 0)
  some (⟨negative, mantissa, power.getD 0 - places, decimals.isNone && power.isNone⟩, cs)

def numeral? : List Char → Option (Numeral × List Char)
  | '-' :: cs => magnitude? true cs
  | cs => magnitude? false cs

-- A value and the text behind it, or the values before the first fault, so that whoever reads them can
-- tell which fault comes first.
abbrev Result (α : Type) := Except α (α × List Char)

def word (value : Json) (rest : Option (List Char)) : Result Json :=
  match rest with
  | some rest => .ok (value, rest)
  | none => .error .cut

mutual

-- Each character costs at most two steps: one for a value, one for the list it stands in.
def value : Nat → List Char → Result Json
  | 0, _ => .error .cut
  | fuel + 1, cs =>
    match dropSpace cs with
    | 'n' :: cs => word .null (behind? ['u', 'l', 'l'] cs)
    | 't' :: cs => word (.bool true) (behind? ['r', 'u', 'e'] cs)
    | 'f' :: cs => word (.bool false) (behind? ['a', 'l', 's', 'e'] cs)
    | '"' :: cs =>
      match literal? cs with
      | some (text, rest) => .ok (.string text, rest)
      | none => .error .cut
    | '[' :: cs =>
      match dropSpace cs with
      | ']' :: rest => .ok (.array [], rest)
      | cs =>
        match items fuel cs with
        | .ok (vs, rest) => .ok (.array vs, rest)
        | .error vs => .error (.array vs)
    | '{' :: cs =>
      match dropSpace cs with
      | '}' :: rest => .ok (.object [], rest)
      | cs =>
        match members fuel cs with
        | .ok (ms, rest) => .ok (.object ms, rest)
        | .error ms => .error (.object ms)
    | cs =>
      match numeral? cs with
      | some (n, rest) => .ok (.number n, rest)
      | none => .error .cut

-- The items of an array up to its closing bracket.
def items : Nat → List Char → Result (List Json)
  | 0, _ => .error [.cut]
  | fuel + 1, cs =>
    match value fuel cs with
    | .error v => .error [v]
    | .ok (v, rest) =>
      match dropSpace rest with
      | ',' :: rest =>
        match items fuel rest with
        | .ok (vs, rest) => .ok (v :: vs, rest)
        | .error vs => .error (v :: vs)
      | ']' :: rest => .ok ([v], rest)
      | _ => .error [v, .cut]

-- The members of an object up to its closing brace.
def members : Nat → List Char → Result (List (Option String × Json))
  | 0, _ => .error [(none, .cut)]
  | fuel + 1, cs =>
    match dropSpace cs with
    | '"' :: cs =>
      match literal? cs with
      | none => .error [(none, .cut)]
      | some (name, cs) =>
        match dropSpace cs with
        | ':' :: cs =>
          match value fuel cs with
          | .error v => .error [(name, v)]
          | .ok (v, rest) =>
            match dropSpace rest with
            | ',' :: rest =>
              match members fuel rest with
              | .ok (ms, rest) => .ok ((name, v) :: ms, rest)
              | .error ms => .error ((name, v) :: ms)
            | '}' :: rest => .ok ([(name, v)], rest)
            | _ => .error [(name, v), (none, .cut)]
        | _ => .error [(name, .cut)]
    | _ => .error [(none, .cut)]

end

end Parser

-- The first value of a text and what follows it, or the values before the first fault.
def parseFirst (s : String) : Except Json (Json × List Char) :=
  Parser.value (2 * s.length + 2) s.toList

-- A text that holds exactly one value, with nothing but space around it.
def parse? (s : String) : Option Json :=
  match parseFirst s with
  | .ok (v, rest) => if (Parser.dropSpace rest).isEmpty then some v else none
  | .error _ => none

end ContainerSizing.Json
