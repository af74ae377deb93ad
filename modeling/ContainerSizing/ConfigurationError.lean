import ContainerSizing.Decimal.Text

namespace ContainerSizing

inductive ConfigurationError where
  | emptyPolicy
  | duplicateLabel (label : String)
  | nonPositiveBound (label : String) (minutes : Float)
  | zeroDuration (label : String)
  | unknownEngine (key : String)
  | invalidPercentile (name : String) (value : Float)
  | invalidThreshold (name : String) (value : Float)
deriving DecidableEq

namespace ConfigurationError

def message : ConfigurationError → String
  | emptyPolicy => "sub-category policy must define at least one sub-category"
  | duplicateLabel label => "sub-category '" ++ label ++ "' is defined more than once"
  | nonPositiveBound label minutes =>
    "sub-category '" ++ label ++ "' has a non-positive lower bound of " ++
      Decimal.plain minutes ++ " minutes"
  | zeroDuration label => "sub-category '" ++ label ++ "' has a duration of zero days"
  | unknownEngine key => "unknown recommendation engine key '" ++ key ++ "'"
  | invalidPercentile name value =>
    name ++ " must be within 0..=100, got " ++ Decimal.plain value
  | invalidThreshold name value =>
    name ++ " must be a non-negative finite number, got " ++ Decimal.plain value

end ConfigurationError

end ContainerSizing
