import ContainerSizing.CommandLine.Invocation
import ContainerSizing.Engine.Basic
import ContainerSizing.Json.Parser
import ContainerSizing.Json.Printer
import ContainerSizing.Report.Overview
import ContainerSizing.Timestamp.Printer

namespace ContainerSizing.CommandLine

inductive FileText where
  | missing
  | unreadable
  | text (s : String)
deriving DecidableEq, Repr

structure Surroundings (m : Type → Type) where
  -- none when the user has no home
  preferencesPath : Option String
  read : String → m FileText
  now : m Timestamp

inductive Failure where
  | unreadablePreferences (path : String)
  | malformedPreferences
  | unknownFormat (name : String)
  | unknownEngine
  | unreadableSeries (path : String)
  | malformedSeries (path : String)
  | unreachableService
deriving DecidableEq, Repr

def Failure.message : Failure → String
  | unreadablePreferences path => "Failed to read config file " ++ path
  | malformedPreferences => "Failed to parse config file"
  | unknownFormat name => "Invalid default_format in config: invalid variant: " ++ name
  | unknownEngine => "Invalid engine"
  | unreadableSeries path => "Failed to read series file " ++ path
  | malformedSeries path => "Failed to parse series file " ++ path
  | unreachableService => "Failed to send request"

-- What a user prefers where the arguments say nothing.
structure Preferences where
  apiUrl : Option String := none
  engine : Option String := none
  format : Option String := none
deriving DecidableEq

namespace Preferences

variable [Json.Conversion]

def reader : Reader Preferences :=
  Reader.record ["api_url", "engine", "default_format"] fun ms =>
    Preferences.mk <$> ms.placed "api_url" Reader.text <*> ms.placed "engine" Reader.text
      <*> ms.placed "default_format" Reader.text

def ofFile (path : String) : FileText → Except Failure Preferences
  | .missing => .ok {}
  | .unreadable => .error (.unreadablePreferences path)
  | .text s =>
    match (Json.parse? s).map reader with
    | some (.ok p) => .ok p
    | _ => .error .malformedPreferences

end Preferences

-- Formats are preferred in letters of any case.
def chooseFormat (given : Option Format) (p : Preferences) : Except Failure Format :=
  match given, p.format with
  | some f, _ => .ok f
  | none, none => .ok default
  | none, some name =>
    match Format.ofName? (Text.lower name) with
    | some f => .ok f
    | none => .error (.unknownFormat name)

def chooseEngine (given : Option String) (p : Preferences) : Except Failure Engine :=
  match given <|> p.engine with
  | none => .ok (Engine.standard default)
  | some key =>
    match EngineKind.ofKey key with
    | .ok kind => .ok (Engine.standard kind)
    | .error _ => .error .unknownEngine

-- A text that is printed line by line, each with its line break.
def printed (lines : List String) : String :=
  String.join (lines.map (· ++ "\n"))

def policyReport : Format → String
  | .json => printed [Policy.standard.toJson.renderIndented]
  | .table => printed [(Report.policyTable .standard).render]

def checkReport (enough : Bool) (s : Series) : Format → String
  | .json => printed [(Json.record [("min_data_available", .bool enough)]).renderIndented]
  | .table =>
    let summary := " (" ++ toString s.size ++ " intervals, " ++
      Decimal.fixed 0 s.totalMinutes ++ " minutes observed)"
    if enough then printed ["✓ Minimum data available" ++ summary]
    else printed ["⚠ Not enough data" ++ summary]

def recommendReport (engine : Engine) (container : Option String) (stop : Timestamp)
    (rs : RecommendationSet) : Format → String
  | .json => printed [(RecommendationSet.toJson rs).renderIndented]
  | .table =>
    printed (container.toList.map ("ℹ Container: " ++ ·) ++
      ["ℹ Engine: " ++ engine.kind.key ++ ", end time: " ++ stop.offsetText,
        (Report.recommendationTable rs).render])

-- What is printed, and the events on the way to it.
structure Answer where
  output : String
  events : List Event := []

def seriesOf [Json.Conversion] (path : String) : FileText → Except Failure Series
  | .text s =>
    match (Json.parse? s).map Series.reader with
    | some (.ok series) => .ok series
    | _ => .error (.malformedSeries path)
  | _ => .error (.unreadableSeries path)

variable [Json.Conversion] {m : Type → Type} [Monad m]

def loadPreferences (around : Surroundings m) : ExceptT Failure m Preferences :=
  match around.preferencesPath with
  | none => pure {}
  | some path => do liftExcept (Preferences.ofFile path (← around.read path))

-- An engine is chosen before the series is looked at. Services are out of this program's reach, so an
-- inquiry to one fails, but not before its series has been read.
def load (around : Surroundings m) (p : Preferences) (q : Inquiry) :
    ExceptT Failure m (Engine × Series) := do
  let engine? ← if q.remote then pure none else some <$> liftExcept (chooseEngine q.engine p)
  let series ← liftExcept (seriesOf q.input (← around.read q.input))
  match engine? with
  | some engine => pure (engine, series)
  | none => throw .unreachableService

-- By default a series is evaluated at its latest interval.
def stopOf (around : Surroundings m) (given : Option Timestamp) (series : Series) : m Timestamp :=
  match given <|> series.latest? with
  | some stop => pure stop
  | none => around.now

def run (around : Surroundings m) (i : Invocation) : ExceptT Failure m Answer := do
  let p ← loadPreferences around
  let format ← liftExcept (chooseFormat i.format p)
  match i.command with
  | .policy => pure { output := policyReport format }
  | .check q =>
    let (engine, series) ← load around p q
    pure { output := checkReport (engine.hasLeastData series) series format }
  | .recommend q =>
    let (engine, series) ← load around p q
    let stop ← ExceptT.lift (stopOf around q.stop series)
    pure {
      output := recommendReport engine q.container stop (engine.recommend series stop) format
      events := (engine.events series stop).filter fun e => i.verbose || e.level = .warn }

structure Outcome where
  code : UInt32
  output : String := ""
  events : List Event := []
  failure : Option Failure := none

def usage : String :=
  printed ["rsz [--api-url URL] [-f|--format table|json] [-v|--verbose] COMMAND",
    "",
    "  recommend -i|--input FILE [--end-time TIME] [-e|--engine KEY] [-c|--container NAME]",
    "            [--remote]",
    "  check     -i|--input FILE [-e|--engine KEY] [--remote]",
    "  policy"]

def respond (around : Surroundings m) (args : List String) : m Outcome := do
  match Arguments.ofList args with
  | .misuse => pure { code := 2 }
  | .halt .help => pure { code := 0, output := usage }
  | .halt .version => pure { code := 0, output := printed ["rsz 0.1.0"] }
  | .run i =>
    match ← (run around i).run with
    | .ok answer => pure { code := 0, output := answer.output, events := answer.events }
    | .error e => pure { code := 1, failure := some e }

end ContainerSizing.CommandLine
