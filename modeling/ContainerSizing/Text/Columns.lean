import ContainerSizing.Text.Follower

namespace ContainerSizing.Text

def textSelector : Char := '\ufe0e'
def emojiSelector : Char := '\ufe0f'

-- A follower, and the styles that selectors in front of it ask for.
structure Surrounding where
  follower : Follower := .other
  textStyle : Bool := false
  emojiStyle : Bool := false
deriving DecidableEq, Repr

namespace Surrounding

-- A selector of emoji style does not part a joined emoji from what is before it.
def selectEmoji (s : Surrounding) : Surrounding :=
  if s.follower.isLigature || s.follower.isJoined then { s with emojiStyle := true }
  else { emojiStyle := true }

def selectText (s : Surrounding) : Surrounding :=
  if s.follower.isLigature then { s with textStyle := true } else { textStyle := true }

-- A selector without a character that it applies to.
def withoutEmojiStyle (s : Surrounding) : Surrounding :=
  if s.follower.isLigature then { s with emojiStyle := false } else {}

-- Columns of a character before no selector of emoji style that applies to it.
def placeInText (c : Char) (s : Surrounding) : Int × Surrounding :=
  if c.toNat ≤ 0xA0 then (1, {})
  else if c = emojiSelector then (0, s.selectEmoji)
  else if c = textSelector then (0, s.selectText)
  else if s.textStyle ∧ Emoji.takesTextStyle c then (1, {})
  else
    let (n, follower) := (s.follower.join? c).getD (charColumns c, .ofChar c)
    (n, { follower := follower })

-- Columns of a character in front of others, and what it makes of them for the next one.
def place (c : Char) (s : Surrounding) : Int × Surrounding :=
  if s.emojiStyle then
    if Emoji.takesEmojiStyle c then (if s.follower.isJoined then 0 else 2, { follower := .emoji })
    else placeInText c s.withoutEmojiStyle
  else
    placeInText c s

end Surrounding

-- Columns are added up from the end of the line, because a character may join what follows it.
def layOut (cs : List Char) : Int × Surrounding :=
  cs.foldr (fun c (n, s) => let (k, s) := s.place c; (k + n, s)) (0, {})

def columns (line : String) : Nat :=
  (layOut line.toList).1.toNat

end ContainerSizing.Text
