import ContainerSizing.Json.Basic

namespace ContainerSizing.Json

namespace Printer

def hexDigit (n : Nat) : Char :=
  if n < 10 then Char.ofNat ('0'.toNat + n) else Char.ofNat ('a'.toNat + (n - 10))

-- Quotes, backslashes and control characters are escaped; all else stands for itself.
def escape (c : Char) : List Char :=
  if c = '"' then ['\\', '"']
  else if c = '\\' then ['\\', '\\']
  else if c = '\n' then ['\\', 'n']
  else if c = '\r' then ['\\', 'r']
  else if c = '\t' then ['\\', 't']
  else if c = '\x08' then ['\\', 'b']
  else if c = '\x0c' then ['\\', 'f']
  else if c.toNat < 32 then
    ['\\', 'u', '0', '0', hexDigit (c.toNat / 16), hexDigit (c.toNat % 16)]
  else [c]

def quoted (s : String) : List Char :=
  '"' :: (s.toList.flatMap escape ++ ['"'])

-- a literal without a text has no written form
def stringChars : Option String → List Char
  | some s => quoted s
  | none => quoted ""

def scalarChars : Json → List Char
  | .bool true => ['t', 'r', 'u', 'e']
  | .bool false => ['f', 'a', 'l', 's', 'e']
  | .number n => n.text.toList
  | .string s => stringChars s
  | _ => ['n', 'u', 'l', 'l']

mutual

def chars : Json → List Char
  | .array items => '[' :: (itemChars items ++ [']'])
  | .object members => '{' :: (memberChars members ++ ['}'])
  | v => scalarChars v

def itemChars : List Json → List Char
  | [] => []
  | [v] => chars v
  | v :: rest => chars v ++ ',' :: itemChars rest

def memberChars : List (Option String × Json) → List Char
  | [] => []
  | [(name, v)] => stringChars name ++ ':' :: chars v
  | (name, v) :: rest => stringChars name ++ ':' :: (chars v ++ ',' :: memberChars rest)

end

def newline (level : Nat) : List Char :=
  '\n' :: List.replicate (2 * level) ' '

mutual

def indented (level : Nat) : Json → List Char
  | .array [] => ['[', ']']
  | .array items =>
    '[' :: (indentedItems (level + 1) items ++ newline level ++ [']'])
  | .object [] => ['{', '}']
  | .object members =>
    '{' :: (indentedMembers (level + 1) members ++ newline level ++ ['}'])
  | v => scalarChars v

def indentedItems (level : Nat) : List Json → List Char
  | [] => []
  | [v] => newline level ++ indented level v
  | v :: rest => newline level ++ indented level v ++ ',' :: indentedItems level rest

def indentedMembers (level : Nat) : List (Option String × Json) → List Char
  | [] => []
  | [(name, v)] => newline level ++ stringChars name ++ ':' :: ' ' :: indented level v
  | (name, v) :: rest =>
    newline level ++ stringChars name ++ ':' :: ' ' :: indented level v ++
      ',' :: indentedMembers level rest

end

end Printer

def render (v : Json) : String :=
  String.ofList (Printer.chars v)

def renderIndented (v : Json) : String :=
  String.ofList (Printer.indented 0 v)

end ContainerSizing.Json
