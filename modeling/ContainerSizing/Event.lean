namespace ContainerSizing

inductive Level where
  | debug
  | info
  | warn
deriving DecidableEq, Repr

def Level.name : Level → String
  | .debug => "DEBUG"
  | .info => "INFO"
  | .warn => "WARN"

inductive FieldValue where
  | text (s : String)
  | count (n : Nat)
  | number (x : Float)
deriving DecidableEq

structure Event where
  level : Level
  message : String
  fields : List (String × FieldValue)
deriving DecidableEq

end ContainerSizing
