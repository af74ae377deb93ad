namespace ContainerSizing

-- In small letters; the suffix stands behind the last plus sign of the subtype.
structure MediaType where
  type : String
  subtype : String
  suffix : Option String
deriving DecidableEq, Repr

namespace MediaType

-- Letters, digits and the marks that may stand in a name without quotes.
def isToken (c : Char) : Bool :=
  c.isAlphanum || "!#$%&'*+-.^_\x60|~".toList.contains c

-- What may stand between quotes.
def isQuotable (c : Char) : Bool :=
  32 ≤ c.toNat && c.toNat < 127

-- What follows the closing quote of a value. The value is not empty, so a quote right behind the
-- opening one belongs to it.
def quotedEnd? : List Char → Option (List Char)
  | [] => none
  | c :: cs =>
    match cs.span fun c => isQuotable c && c ≠ '"' with
    | (_, '"' :: rest) => if isQuotable c then some rest else none
    | _ => none

-- What follows the value of a parameter: nothing, or the next parameter.
def valueEnd? : List Char → Option (List Char)
  | '"' :: cs =>
    match quotedEnd? cs with
    | none => none
    | some rest =>
      match rest.dropWhile (· = ' ') with
      | [] => some []
      | ';' :: rest => some rest
      | _ => none
  | cs =>
    match cs.span isToken with
    | (_, []) => some []
    | (_ :: _, ';' :: rest) => some rest
    | _ => none

-- Every parameter is a name, an equals sign and a value.
def areParameters : Nat → List Char → Bool
  | 0, _ => false
  | fuel + 1, cs =>
    match cs.dropWhile (· = ' ') with
    | [] => true
    | cs =>
      match cs.span isToken with
      | (_ :: _, '=' :: value) =>
        match valueEnd? value with
        | some rest => areParameters fuel rest
        | none => false
      | _ => false

-- Splits a subtype at its last plus sign, if text stands before it.
def splitSuffix (cs : List Char) : List Char × Option (List Char) :=
  match cs.reverse.span (· ≠ '+') with
  | (suffix, '+' :: before@(_ :: _)) => (before.reverse, some suffix.reverse)
  | _ => (cs, none)

def lowered (cs : List Char) : String :=
  String.ofList (cs.map Char.toLower)

def ofText? (s : String) : Option MediaType :=
  match s.toList.span isToken with
  | (kind@(_ :: _), '/' :: cs) =>
    match cs.span isToken with
    | ([], _) => none
    | (subtype, rest) =>
      let parameters :=
        match rest with
        | [] => true
        | c :: rest => c = ';' && areParameters (rest.length + 1) rest
      let (subtype, suffix) := splitSuffix subtype
      if parameters then some ⟨lowered kind, lowered subtype, suffix.map lowered⟩ else none
  | _ => none

-- JSON itself, or an application's own type that is written in JSON.
def isJson (m : MediaType) : Bool :=
  m.type = "application" && (m.subtype = "json" || m.suffix = some "json")

end MediaType

end ContainerSizing
