import ContainerSizing.CommandLine.Switches
import ContainerSizing.Timestamp.Parser

namespace ContainerSizing.CommandLine

inductive Format where
  | table
  | json
deriving DecidableEq, Repr, Inhabited

def Format.ofName? : String → Option Format
  | "table" => some .table
  | "json" => some .json
  | _ => none

-- A question about the series in a file.
structure Inquiry where
  input : String
  stop : Option Timestamp
  engine : Option String
  container : Option String
  remote : Bool
deriving DecidableEq

inductive Command where
  | recommend (inquiry : Inquiry)
  | check (inquiry : Inquiry)
  | policy
deriving DecidableEq

structure Invocation where
  apiUrl : Option String
  format : Option Format
  verbose : Bool
  command : Command
deriving DecidableEq

inductive Arguments where
  | run (invocation : Invocation)
  | halt (how : Halt)
  | misuse
deriving DecidableEq

structure General where
  apiUrl : Option String := none
  format : Option Format := none
  verbose : Bool := false

def helpSwitch : Switch σ :=
  ⟨"help", some 'h', .halt .help⟩

def generalSwitches : List (Switch General) :=
  [⟨"api-url", none, .valued fun v s => (once s.apiUrl (some v)).map ({ s with apiUrl := · })⟩,
    ⟨"format", some 'f',
      .valued fun v s => (once s.format (Format.ofName? v)).map ({ s with format := · })⟩,
    ⟨"verbose", some 'v',
      .plain fun s => if s.verbose then none else some { s with verbose := true }⟩,
    helpSwitch, ⟨"version", some 'V', .halt .version⟩]

structure Details where
  input : Option String := none
  stop : Option Timestamp := none
  engine : Option String := none
  container : Option String := none
  remote : Bool := false

-- A path is never empty.
def pathOf? (s : String) : Option String :=
  if s.isEmpty then none else some s

def checkSwitches : List (Switch Details) :=
  [⟨"input", some 'i', .valued fun v s => (once s.input (pathOf? v)).map ({ s with input := · })⟩,
    ⟨"engine", some 'e', .valued fun v s => (once s.engine (some v)).map ({ s with engine := · })⟩,
    ⟨"remote", none, .plain fun s => if s.remote then none else some { s with remote := true }⟩,
    helpSwitch]

def recommendSwitches : List (Switch Details) :=
  checkSwitches ++
    [⟨"end-time", none,
        .valued fun v s => (once s.stop (Timestamp.ofText? v)).map ({ s with stop := · })⟩,
      ⟨"container", some 'c',
        .valued fun v s => (once s.container (some v)).map ({ s with container := · })⟩]

-- An inquiry needs an input.
def Details.inquiry? (d : Details) : Option Inquiry :=
  d.input.map fun input => ⟨input, d.stop, d.engine, d.container, d.remote⟩

def commandNames : List String :=
  ["recommend", "check", "policy", "help"]

-- The options of a command must take up all arguments behind it.
def scanAll (switches : List (Switch σ)) (s : σ) (args : List String)
    (command? : σ → Option Command) (general : General) : Arguments :=
  match scan switches s args with
  | .halt how => .halt how
  | .misuse => .misuse
  | .done s words =>
    match words, command? s with
    | [], some command => .run ⟨general.apiUrl, general.format, general.verbose, command⟩
    | _, _ => .misuse

def ofCommand (general : General) (args : List String) : String → Arguments
  | "recommend" =>
    scanAll recommendSwitches {} args (fun d => d.inquiry?.map .recommend) general
  | "check" => scanAll checkSwitches {} args (fun d => d.inquiry?.map .check) general
  | "policy" => scanAll [helpSwitch] () args (fun _ => some .policy) general
  | "help" =>
    match args with
    | [] => .halt .help
    | [name] => if name ∈ commandNames then .halt .help else .misuse
    | _ => .misuse
  | _ => .misuse

-- There must be a command.
def Arguments.ofList (args : List String) : Arguments :=
  match scan generalSwitches {} args with
  | .halt how => .halt how
  | .misuse | .done _ [] => .misuse
  | .done general (name :: args) => ofCommand general args name

end ContainerSizing.CommandLine
