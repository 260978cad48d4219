import GhciRelay.Text.Digit
import GhciRelay.Text.Quoted

/-!
# Words of a command line

The arguments of a command line are first looked at one by one. An argument is a switch, with or
without a value after an equals sign, or it is a value; a double hyphen ends the switches, and
everything after it is a value. A long switch may be cut short as long as only one switch begins that
way. What looks like a switch and is none is kept as unknown, except for negative numbers and texts
with a space, which are values.
-/

namespace GhciRelay.CommandLine

open GhciRelay.Text

/-- **A switch** of the program. -/
inductive Switch where
  | help
  | version
  | stdio
  | tcp
  | host
  | port
  | logLevel
deriving DecidableEq

/-- The names of the switches, in order. -/
def names : List (String × Switch) := [
  ("-h", .help), ("--help", .help), ("--version", .version), ("--stdio", .stdio), ("--tcp", .tcp),
  ("--host", .host), ("--port", .port), ("--log-level", .logLevel)]

/-- The names by which errors call a switch. -/
def Switch.names : Switch → String
  | .help => "-h/--help"
  | .version => "--version"
  | .stdio => "--stdio"
  | .tcp => "--tcp"
  | .host => "--host"
  | .port => "--port"
  | .logLevel => "--log-level"

/-- The switch is followed by a value. -/
def Switch.takesValue : Switch → Bool
  | .host => true
  | .port => true
  | .logLevel => true
  | _ => false

/-- **Why a command line is refused.** -/
inductive UsageError where
  | ambiguous (argument : String) (candidates : List String)
  | expectedValue (switch : Switch)
  | unexpectedValue (switch : Switch) (value : String)
  | notInteger (switch : Switch) (value : String)
  | unrecognized (arguments : List String)
deriving DecidableEq

/-- The words in which a command line is refused. -/
def UsageError.message : UsageError → String
  | .ambiguous argument candidates =>
    "ambiguous option: " ++ argument ++ " could match " ++ ", ".intercalate candidates
  | .expectedValue s => "argument " ++ s.names ++ ": expected one argument"
  | .unexpectedValue s value =>
    "argument " ++ s.names ++ ": ignored explicit argument " ++ quoted value
  | .notInteger s value => "argument " ++ s.names ++ ": invalid int value: " ++ quoted value
  | .unrecognized arguments => "unrecognized arguments: " ++ " ".intercalate arguments

/-- **A word**: a switch, given by a short or a long name and perhaps with a value of its own, a
value, the double hyphen, or something that looks like a switch. -/
inductive Word where
  | switch (s : Switch) (short : Bool) (own : Option String)
  | value (text : String)
  | divider
  | unknown (text : String)
deriving DecidableEq

/-- The double hyphen. -/
def dividerText : String := "--"

/-- What stands before the first equals sign, and what after it. -/
def splitEquals (argument : List Char) : List Char × Option (List Char) :=
  match argument.dropWhile (· != '=') with
  | [] => (argument, none)
  | _ :: rest => (argument.takeWhile (· != '='), some rest)

/-- A number with a minus sign. -/
def isNegativeNumber (argument : List Char) : Bool :=
  match argument with
  | '-' :: body =>
    let body := if body.getLast? = some '\n' then body.dropLast else body
    match body.dropWhile isDigit with
    | [] => !body.isEmpty
    | '.' :: places => !places.isEmpty && places.all isDigit
    | _ => false
  | _ => false

/-- The switches whose names begin with a text. -/
def candidates (beginning : List Char) : List (String × Switch) :=
  names.filter fun n => beginning.isPrefixOf n.1.toList

/-- The word that an argument with two hyphens is, if it is a switch that was cut short. -/
def readLong? (argument : List Char) : Except UsageError (Option Word) :=
  let (name, own) := splitEquals argument
  match candidates name with
  | [] => .ok none
  | [(_, s)] => .ok (some (.switch s false (own.map String.ofList)))
  | several => .error (.ambiguous (String.ofList argument) (several.map Prod.fst))

/-- The word that an argument with one hyphen is, if its first letter is a switch. -/
def readShort? (argument : List Char) : Option Word :=
  (names.lookup (String.ofList (argument.take 2))).map fun s =>
    .switch s true (some (String.ofList (argument.drop 2)))

/-- The word that an argument is if it is the name of a switch in full, with or without a value. -/
def readFull? (argument : List Char) : Option Word :=
  match names.lookup (String.ofList argument) with
  | some s => some (.switch s (argument.length == 2) none)
  | none =>
    match splitEquals argument with
    | (name, some own) =>
      (names.lookup (String.ofList name)).map fun s =>
        .switch s (name.length == 2) (some (String.ofList own))
    | (_, none) => none

/-- The word that an argument is if it is no switch. -/
def readOther (argument : List Char) : Word :=
  if isNegativeNumber argument || argument.contains ' ' then .value (String.ofList argument)
  else .unknown (String.ofList argument)

/-- **The word that an argument is.** -/
def readWord (argument : String) : Except UsageError Word :=
  match argument.toList with
  | '-' :: c :: rest =>
    let cs := '-' :: c :: rest
    match readFull? cs with
    | some w => .ok w
    | none =>
      if c == '-' then (readLong? cs).map fun w => w.getD (readOther cs)
      else .ok ((readShort? cs).getD (readOther cs))
  | _ => .ok (.value argument)

/-- **The words of a command line.** -/
def readWords : List String → Except UsageError (List Word)
  | [] => .ok []
  | argument :: rest =>
    if argument = dividerText then .ok (.divider :: rest.map .value)
    else
      match readWord argument with
      | .error e => .error e
      | .ok w => (readWords rest).map (w :: ·)

end GhciRelay.CommandLine
