import ContainerSizing.Text.Emoji
import ContainerSizing.Text.Extent

namespace ContainerSizing.Text

def joiner : Char := '\u200d'
def keycap : Char := '\u20e3'

-- Ends of ligatures: the last letter, or what has been joined to it.
inductive LigatureEnd where
  | lamed
  | ya
  | vowelYa
  | tifinagh
  | joinedTifinagh
  | toneMark
  | orkhonI
  | khmer
deriving DecidableEq, Repr

namespace LigatureEnd

def isTifinagh (c : Char) : Bool :=
  (0x2D31 ≤ c.toNat && c.toNat ≤ 0x2D65) || c.toNat = 0x2D6F

-- Letters that are written below others behind the sign for it.
def subscripts : CharSet :=
  ⟨[(0x1780, 0x1782), (0x1784, 0x1787), (0x1789, 0x178C), (0x178E, 0x1793), (0x1795, 0x1798),
    (0x179B, 0x179D), (0x17A0, 0x17A0), (0x17A2, 0x17A2), (0x17A7, 0x17A7), (0x17AB, 0x17AC),
    (0x17AF, 0x17AF)]⟩

def ofChar? (c : Char) : Option LigatureEnd :=
  if c.toNat = 0x5DC then some lamed
  else if c.toNat = 0x1A10 then some ya
  else if isTifinagh c then some tifinagh
  else if c.toNat = 0xA4FC ∨ c.toNat = 0xA4FD then some toneMark
  else if c.toNat = 0x10C03 then some orkhonI
  else if c ∈ subscripts then some khmer
  else none

end LigatureEnd

-- Invisible marks that do not part the letters of a ligature.
def transparent : CharSet :=
  ⟨[(0x34F, 0x34F), (0x17B4, 0x17B5), (0x180B, 0x180D), (0x180F, 0x180F), (0xFE00, 0xFE0F),
    (0xE0100, 0xE01EF)]⟩

-- The letters that an Arabic lam takes up into itself.
def alefs : CharSet :=
  ⟨[(0x622, 0x623), (0x625, 0x625), (0x627, 0x627), (0x671, 0x673), (0x675, 0x675),
    (0x773, 0x774), (0x870, 0x882)]⟩

def lams : CharSet :=
  ⟨[(0x644, 0x644), (0x6B5, 0x6B8), (0x76A, 0x76A), (0x8A6, 0x8A6), (0x8C7, 0x8C7)]⟩

-- Characters without columns that part the Arabic letters around them all the same.
def parting : CharSet :=
  ⟨[(0x605, 0x605), (0x890, 0x891), (0x8E2, 0x8E2), (0x9BE, 0x9BE), (0x9D7, 0x9D7), (0xB3E, 0xB3E),
    (0xB57, 0xB57), (0xBBE, 0xBBE), (0xBD7, 0xBD7), (0xCC0, 0xCC0), (0xCC2, 0xCC2), (0xCC7, 0xCC8),
    (0xCCA, 0xCCB), (0xCD5, 0xCD6), (0xD3E, 0xD3E), (0xD4E, 0xD4E), (0xD57, 0xD57), (0xDCF, 0xDCF),
    (0xDDF, 0xDDF), (0x1160, 0x11FF), (0x180E, 0x180E), (0x1B35, 0x1B35), (0x1B3B, 0x1B3B),
    (0x1B3D, 0x1B3D), (0x1B43, 0x1B43), (0x200C, 0x200D), (0x2065, 0x2069), (0x302E, 0x302F),
    (0x3164, 0x3164), (0xA8FA, 0xA8FA), (0xD7B0, 0xD7C6), (0xD7CB, 0xD7FB), (0xFF9E, 0xFFA0),
    (0xFFF0, 0xFFF8), (0x111C2, 0x111C3), (0x1133E, 0x1133E), (0x11357, 0x11357),
    (0x114B0, 0x114B0), (0x114BD, 0x114BD), (0x115AF, 0x115AF), (0x11930, 0x11930),
    (0x1193F, 0x1193F), (0x11941, 0x11941), (0x11A3A, 0x11A3A), (0x11A84, 0x11A89),
    (0x11D46, 0x11D46), (0x11F02, 0x11F02), (0x1D165, 0x1D165), (0x1D16E, 0x1D172),
    (0xE0000, 0xE0000), (0xE0002, 0xE001F), (0xE0080, 0xE00FF), (0xE01F0, 0xE0FFF)]⟩

-- What stands behind a character, as far as the character may join it.
inductive Follower where
  | other
  | alef
  | ligature (e : LigatureEnd) (joined : Bool)
  | modifier
  | emoji
  | regionLetters (count : Nat)
  | joinedEmoji
  | joinedKeycap
  | joinedRegionLetters (count : Nat)
  | joinedTags (letters digits : Nat)
deriving DecidableEq, Repr

-- Columns, which may take back some that were counted before, and the follower they lead to.
abbrev Joint := Int × Follower

namespace Follower

-- What a character is to the one before it.
def ofChar (c : Char) : Follower :=
  if Emoji.isRegionLetter c then regionLetters 1
  else if Emoji.isModifier c then modifier
  else if c ∈ Emoji.pictures then emoji
  else if c ∈ alefs then alef
  else
    match LigatureEnd.ofChar? c with
    | some e => ligature e false
    | none => other

-- Ligatures are not parted by style selectors.
def isLigature : Follower → Bool
  | alef | ligature .. => true
  | _ => false

-- An emoji that takes what is before its joiner up into itself.
def isJoined : Follower → Bool
  | joinedEmoji | joinedKeycap => true
  | _ => false

def joinAlef? (c : Char) : Option Joint :=
  if c ∈ lams then some (0, other)
  else if charColumns c = 0 ∧ c ∉ parting then some (0, alef)
  else none

def joinLetter? (c : Char) (joined : Bool) : LigatureEnd → Option Joint
  | .lamed => if joined ∧ c.toNat = 0x5D0 then some (0, other) else none
  | .ya => if joined ∧ c.toNat = 0x1A17 then some (0, ligature .vowelYa true) else none
  | .vowelYa => if c.toNat = 0x1A15 then some (0, other) else none
  | .tifinagh =>
    if c.toNat = 0x2D7F then some (1, ligature .joinedTifinagh true)
    else if joined ∧ LigatureEnd.isTifinagh c then some (0, other)
    else none
  | .joinedTifinagh => if LigatureEnd.isTifinagh c then some (-1, other) else none
  | .toneMark => if 0xA4F8 ≤ c.toNat ∧ c.toNat ≤ 0xA4FB then some (0, other) else none
  | .orkhonI => if joined ∧ c.toNat = 0x10C32 then some (0, other) else none
  | .khmer => if c.toNat = 0x17D2 then some (-1, other) else none

def joinLigature? (c : Char) (joined : Bool) (e : LigatureEnd) : Option Joint :=
  if c = joiner then some (0, ligature e true)
  else if c ∈ transparent then some (0, ligature e joined)
  else joinLetter? c joined e

def joinEmoji? (c : Char) : Option Joint :=
  if c = joiner then some (0, joinedEmoji) else none

def joinRegionLetters? (c : Char) (count : Nat) : Option Joint :=
  if Emoji.isRegionLetter c then some (1, regionLetters (count + 1))
  -- one letter alone is no emoji
  else if 2 ≤ count then joinEmoji? c
  else none

-- What stands in front of a joiner and an emoji.
def joinJoined? (c : Char) : Option Joint :=
  if c = keycap then some (0, joinedKeycap)
  else if Emoji.isRegionLetter c then some (1, joinedRegionLetters 1)
  else if Emoji.isModifier c then some (0, modifier)
  else if c.toNat = 0xE007F then some (0, joinedTags 0 0)
  else if c ∈ Emoji.pictures then some (0, emoji)
  else none

-- The last flag in a row of region letters is joined, but a letter that is left over is not. The row
-- is paired anew with every letter.
def joinJoinedRegionLetters? (c : Char) (count : Nat) : Option Joint :=
  if Emoji.isRegionLetter c then
    some (if count % 2 = 1 then -1 else 3, joinedRegionLetters (count + 1))
  else if 2 ≤ count then joinEmoji? c
  else none

-- Up to six letters, or three digits with up to four letters before the flag.
def joinTags? (c : Char) (letters digits : Nat) : Option Joint :=
  if Emoji.isTagLetter c ∧ digits = 0 ∧ letters < 6 then some (0, joinedTags (letters + 1) 0)
  else if Emoji.isTagDigit c ∧ (if digits = 0 then letters ≤ 4 else digits < 3) then
    some (0, joinedTags letters (digits + 1))
  else if c.toNat = 0x1F3F4 ∧ (if digits = 0 then 3 ≤ letters else digits = 3) then
    some (0, emoji)
  else none

-- How a character joins its follower, if it does.
def join? (c : Char) : Follower → Option Joint
  | other => none
  | alef => joinAlef? c
  | ligature e joined => joinLigature? c joined e
  | modifier => if c ∈ Emoji.modifierBases then some (0, emoji) else joinEmoji? c
  | emoji => joinEmoji? c
  | regionLetters count => joinRegionLetters? c count
  | joinedEmoji => joinJoined? c
  | joinedKeycap => none
  | joinedRegionLetters count => joinJoinedRegionLetters? c count
  | joinedTags letters digits => joinTags? c letters digits

end Follower

end ContainerSizing.Text
