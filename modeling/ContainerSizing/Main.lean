import ContainerSizing.CommandLine.Run
import Std.Time.DateTime.Timestamp

namespace ContainerSizing.CommandLine

def readText (path : String) : IO FileText := do
  try
    return .text (← IO.FS.readFile path)
  catch
    | .noFileOrDirectory .. => return .missing
    | _ => return .unreadable

def readClock : IO Timestamp := do
  let t ← Std.Time.Timestamp.now
  return (Timestamp.ofParts? t.val.second.val t.val.nano.val.toNat).getD default

def surroundings : IO (Surroundings IO) := do
  let home ← IO.getEnv "HOME"
  return {
    preferencesPath := home.map (· ++ "/.config/rsz/config.json")
    read := readText
    now := readClock }

-- Numbers are read as the library reads them by default.
attribute [local instance] Json.Conversion.stepwise

def outcome (args : List String) : IO Outcome := do
  respond (← surroundings) args

def fieldText : String × FieldValue → String
  | (name, .text s) => name ++ "=" ++ s
  | (name, .count n) => name ++ "=" ++ toString n
  | (name, .number x) => name ++ "=" ++ Decimal.plain x

def eventText (e : Event) : String :=
  " ".intercalate (e.level.name :: e.message :: e.fields.map fieldText)

end ContainerSizing.CommandLine

open ContainerSizing.CommandLine in
def main (args : List String) : IO UInt32 := do
  let outcome ← outcome args
  for e in outcome.events do
    IO.eprintln (eventText e)
  IO.print outcome.output
  if let some failure := outcome.failure then
    IO.eprintln ("Error: " ++ failure.message)
  if outcome.code = 2 then
    IO.eprint usage
  return outcome.code
