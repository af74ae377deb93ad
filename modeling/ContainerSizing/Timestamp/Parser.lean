import ContainerSizing.Decimal.Numeral
import ContainerSizing.Text.Blank
import ContainerSizing.Timestamp.Basic

namespace ContainerSizing.Timestamp

open Text

-- A number of at most `width` digits behind blanks.
def number? (width : Nat) (cs : List Char) : Option (Nat × List Char) :=
  let cs := dropBlank cs
  let run := DigitRun.read (cs.take width)
  if run.length = 0 then none else some (run.value, run.rest ++ cs.drop width)

-- A year has up to four digits, or a sign and any number of them.
def year? (cs : List Char) : Option (Int × List Char) :=
  match dropBlank cs with
  | '-' :: rest => (unlimited rest).map fun (n, rest) => (-(n : Int), rest)
  | '+' :: rest => (unlimited rest).map fun (n, rest) => (n, rest)
  | rest => (number? 4 rest).map fun (n, rest) => (n, rest)
where
  unlimited (cs : List Char) : Option (Nat × List Char) :=
    let run := DigitRun.read cs
    if run.length = 0 then none else some (run.value, run.rest)

-- A mark between two numbers; blanks may stand before it.
def mark? (c : Char) (cs : List Char) : Option (List Char) :=
  match dropBlank cs with
  | d :: rest => if c = d then some rest else none
  | [] => none

def separator? : List Char → Option (List Char)
  | 'T' :: rest | 't' :: rest | ' ' :: rest => some rest
  | _ => none

-- Nanoseconds of a fraction, if one follows; digits past the ninth are dropped.
def fraction? : List Char → Option (Nat × List Char)
  | '.' :: rest =>
    let run := DigitRun.read (rest.take 9)
    if run.length = 0 then none
    else
      let nanos := run.value * Decimal.powerOfTen (9 - run.length)
      some (nanos, (run.rest ++ rest.drop 9).dropWhile Char.isDigit)
  | rest => some (0, rest)

def twoDigits? : List Char → Option (Nat × List Char)
  | a :: b :: rest =>
    if a.isDigit ∧ b.isDigit then
      some (DigitRun.digitValue a * 10 + DigitRun.digitValue b, rest)
    else none
  | _ => none

-- Hours and minutes east of UTC, in seconds.
def offset? (cs : List Char) : Option (Nat × List Char) := do
  let (hours, rest) ← twoDigits? cs
  let (minutes, rest) ← twoDigits? (rest.dropWhile fun c => c = ':' ∨ isBlank c)
  if minutes < 60 ∧ hours < 24 then some (hours * 3600 + minutes * 60, rest) else none

def zone? (cs : List Char) : Option (Int × List Char) :=
  let cs := dropBlank cs
  if sameLetters (cs.take 3) ['u', 't', 'c'] then some (0, cs.drop 3)
  else
    match cs with
    | 'Z' :: rest | 'z' :: rest => some (0, rest)
    | '+' :: rest => (offset? rest).map fun (n, rest) => (n, rest)
    -- the minus sign proper is read like the hyphen
    | '-' :: rest | '−' :: rest => (offset? rest).map fun (n, rest) => (-(n : Int), rest)
    | _ => none

-- A clock reading on a date, before its zone is known. Second 60 is a leap second.
def ofClock? (date : CivilDate) (hour minute second nanos : Nat) : Option Timestamp :=
  if date.Exists ∧ hour < 24 ∧ minute < 60 ∧ second ≤ 60 then
    let whole := date.toDays * secondsPerDay + (hour * 3600 + minute * 60 : Nat)
    if second = 60 then ofParts? (whole + 59) (nanosPerSecond + nanos)
    else ofParts? (whole + second) nanos
  else
    none

def ofText? (s : String) : Option Timestamp := do
  let (year, cs) ← year? s.toList
  let cs ← mark? '-' cs
  let (month, cs) ← number? 2 cs
  let cs ← mark? '-' cs
  let (day, cs) ← number? 2 cs
  let cs ← separator? cs
  let (hour, cs) ← number? 2 cs
  let cs ← mark? ':' cs
  let (minute, cs) ← number? 2 cs
  let cs ← mark? ':' cs
  let (second, cs) ← number? 2 cs
  let (nanos, cs) ← fraction? cs
  let (east, cs) ← zone? cs
  -- the local reading must itself lie in the supported years
  let reading ← ofClock? ⟨year, month, day⟩ hour minute second nanos
  if (dropBlank cs).isEmpty then ofParts? (reading.seconds - east) reading.nanos else none

end ContainerSizing.Timestamp
