import ContainerSizing.Decimal.Text
import ContainerSizing.Timestamp.Basic

namespace ContainerSizing.Timestamp

open Decimal (padded)

-- Four digits for the years 0 to 9999; any other year has a sign and at least four digits.
def yearText (year : Int) : String :=
  if 0 ≤ year ∧ year ≤ 9999 then padded 4 year.toNat
  else (if year < 0 then "-" else "+") ++ padded 4 year.natAbs

def dateText (t : Timestamp) : String :=
  let date := CivilDate.ofDays t.dayNumber
  yearText date.year ++ "-" ++ padded 2 date.month ++ "-" ++ padded 2 date.day

def hourText (t : Timestamp) : String :=
  padded 2 (t.secondOfDay / 3600)

def minuteText (t : Timestamp) : String :=
  padded 2 (t.secondOfDay / 60 % 60)

-- A leap second is second 60.
def secondText (t : Timestamp) : String :=
  padded 2 (t.secondOfDay % 60 + t.nanos / nanosPerSecond)

def fractionText (t : Timestamp) : String :=
  let nanos := t.nanos % nanosPerSecond
  if nanos = 0 then ""
  else if nanos % 1000000 = 0 then "." ++ padded 3 (nanos / 1000000)
  else if nanos % 1000 = 0 then "." ++ padded 6 (nanos / 1000)
  else "." ++ padded 9 nanos

def clockText (t : Timestamp) : String :=
  t.hourText ++ ":" ++ t.minuteText ++ ":" ++ t.secondText ++ t.fractionText

-- `2024-01-10T01:00:00Z`, the form of keys and fields in JSON.
def isoText (t : Timestamp) : String :=
  t.dateText ++ "T" ++ t.clockText ++ "Z"

-- `2024-01-10T01:00:00+00:00`.
def offsetText (t : Timestamp) : String :=
  t.dateText ++ "T" ++ t.clockText ++ "+00:00"

-- `2024-01-10 01:00:00 UTC`, the form in messages.
def messageText (t : Timestamp) : String :=
  t.dateText ++ " " ++ t.clockText ++ " UTC"

-- `2024-01-10 01:00`.
def shortText (t : Timestamp) : String :=
  t.dateText ++ " " ++ t.hourText ++ ":" ++ t.minuteText

end ContainerSizing.Timestamp
