namespace ContainerSizing.CommandLine

-- Options at which reading stops.
inductive Halt where
  | help
  | version
deriving DecidableEq, Repr

-- What an option does to the state. It may refuse a value, or to be given again.
inductive Effect (σ : Type) where
  | plain (apply : σ → Option σ)
  | valued (apply : String → σ → Option σ)
  | halt (how : Halt)

structure Switch (σ : Type) where
  name : String
  letter : Option Char
  effect : Effect σ

-- Where one argument leads.
inductive Step (σ : Type) where
  | next (s : σ)
  | awaits (apply : String → Option σ)
  | halt (how : Halt)
  | misuse

namespace Step

def ofOption : Option σ → Step σ
  | some s => next s
  | none => misuse

end Step

variable {σ : Type}

-- The effect of an option with a value attached to it, or without one.
def Effect.step (s : σ) (effect : Effect σ) (attached : Option String) : Step σ :=
  match effect, attached with
  | .plain apply, none => .ofOption (apply s)
  | .valued apply, some v => .ofOption (apply v s)
  | .valued apply, none => .awaits fun v => apply v s
  | .halt how, none => .halt how
  | .plain _, some _ | .halt _, some _ => .misuse

-- An option by its name; behind an equals sign stands its value.
def longStep (switches : List (Switch σ)) (s : σ) (cs : List Char) : Step σ :=
  let (name, attached) :=
    match cs.span (· ≠ '=') with
    | (name, _ :: v) => (name, some (String.ofList v))
    | (name, []) => (name, none)
  match switches.find? fun o => o.name = String.ofList name with
  | some o => o.effect.step s attached
  | none => .misuse

-- Options by their letters. What follows the letter of an option with a value is that value; an equals
-- sign between them does not belong to it.
def shortStep (switches : List (Switch σ)) (s : σ) : List Char → Step σ
  | [] => .next s
  | c :: cs =>
    match switches.find? fun o => o.letter = some c with
    | none => .misuse
    | some o =>
      match o.effect with
      | .valued apply =>
        match cs with
        | [] => .awaits fun v => apply v s
        | '=' :: cs => .ofOption (apply (String.ofList cs) s)
        | cs => .ofOption (apply (String.ofList cs) s)
      | .halt how => .halt how
      | .plain apply =>
        match apply s with
        | some s => shortStep switches s cs
        | none => .misuse

-- A single dash is a word like any other.
def isWord (arg : String) : Bool :=
  match arg.toList with
  | '-' :: _ :: _ => false
  | _ => true

-- The state behind all options, and the first word that is no value with everything behind it.
inductive Scan (σ : Type) where
  | done (s : σ) (words : List String)
  | halt (how : Halt)
  | misuse

-- Two dashes alone end the options; they must be the last argument, as no words may follow.
def scan (switches : List (Switch σ)) (s : σ) : List String → Scan σ
  | [] => .done s []
  | arg :: rest =>
    if isWord arg then
      .done s (arg :: rest)
    else if arg = "--" then
      if rest.isEmpty then .done s [] else .misuse
    else
      let step :=
        match arg.toList with
        | '-' :: '-' :: cs => longStep switches s cs
        | cs => shortStep switches s (cs.drop 1)
      match step with
      | .next s => scan switches s rest
      | .halt how => .halt how
      | .misuse => .misuse
      | .awaits apply =>
        match rest with
        | [] => .misuse
        | v :: rest =>
          match isWord v, apply v with
          | true, some s => scan switches s rest
          | _, _ => .misuse

-- Sets what has not been set yet.
def once : Option α → Option α → Option (Option α)
  | none, some a => some (some a)
  | _, _ => none

end ContainerSizing.CommandLine
