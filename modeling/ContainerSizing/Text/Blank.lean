namespace ContainerSizing.Text

-- The 25 characters with the Unicode property `White_Space`.
def isBlank (c : Char) : Bool :=
  let n := c.toNat
  (9 ≤ n ∧ n ≤ 13) ∨ n = 32 ∨ n = 133 ∨ n = 160 ∨ n = 5760 ∨ (8192 ≤ n ∧ n ≤ 8202) ∨
    n = 8232 ∨ n = 8233 ∨ n = 8239 ∨ n = 8287 ∨ n = 12288

def dropBlank (cs : List Char) : List Char :=
  cs.dropWhile isBlank

-- Without the blanks at both ends.
def trim (s : String) : String :=
  String.ofList (dropBlank (dropBlank s.toList).reverse).reverse

-- Capital letters of ASCII made small; every other character stays.
def lower (s : String) : String :=
  String.ofList (s.toList.map Char.toLower)

-- Equal up to the case of ASCII letters.
def sameLetters (a b : List Char) : Bool :=
  a.map Char.toLower == b.map Char.toLower

end ContainerSizing.Text
