/-!
# Problems of a configuration

What is wrong with a configured value, and where it stands: the path of the value is the list of the
names that lead to it.
-/

namespace GhciRelay

/-- What is wrong with a value. -/
inductive Problem.Cause where
  | notText
  | blankCommand
  | unknownLevel
  | notObject (expected : String)
deriving DecidableEq

/-- **A problem** of a configuration. -/
structure Problem where
  path : List String
  cause : Problem.Cause
deriving DecidableEq

namespace Problem

/-- The kind of a problem. -/
def kind (p : Problem) : String :=
  match p.cause with
  | .notText => "string_type"
  | .blankCommand => "value_error"
  | .unknownLevel => "value_error"
  | .notObject _ => "model_type"

/-- A problem in words. -/
def message (p : Problem) : String :=
  match p.cause with
  | .notText => "Input should be a valid string"
  | .blankCommand => "Value error, ghci_command must not be blank"
  | .unknownLevel =>
    "Value error, log_level must be one of CRITICAL, DEBUG, ERROR, INFO, WARNING"
  | .notObject expected => "Input should be a valid dictionary or instance of " ++ expected

end Problem

end GhciRelay
