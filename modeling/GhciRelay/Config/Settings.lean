import GhciRelay.Config.EnvFile
import GhciRelay.Config.Problem
import GhciRelay.Json.Basic
import GhciRelay.Log
import GhciRelay.Output.Prompt
import GhciRelay.Text.Uppercase

/-!
# Settings

The program has four settings. The value of each is taken from the first source that has one: what
the caller gives, the environment, the environment file, and at last the default. Only that value is
looked at, and all problems are told at once, in the order of the settings.

In the environment and in the file a setting is known by its name after a common beginning; large and
small letters are not told apart.
-/

namespace GhciRelay

/-- **The settings of the program.** -/
structure Settings where
  command : String
  level : Log.Level
  notificationNamespace : String
  statusLabel : String
deriving DecidableEq

namespace Settings

open GhciRelay.Text

/-- The four settings. -/
inductive Field where
  | command
  | level
  | notificationNamespace
  | statusLabel
deriving DecidableEq

/-- The name of a setting. -/
def Field.name : Field → String
  | .command => "ghci_command"
  | .level => "log_level"
  | .notificationNamespace => "notification_prefix"
  | .statusLabel => "status_prefix"

/-- The value of a setting that nobody gives. -/
def Field.default : Field → String
  | .command => "cabal repl --repl-options=-ddump-json"
  | .level => "INFO"
  | .notificationNamespace => Prompt.programName
  | .statusLabel => "GHCi Bridge"

/-- **Where settings come from.** -/
structure Sources where
  given : List (String × Json)
  environment : List (String × String)
  file : Option String

/-- A name in which large letters are made small. Only ASCII letters occur in the names that are
looked for, and no other letter becomes one of them. -/
def foldName (name : String) : String := String.ofList (name.toList.map Char.toLower)

/-- The name of a setting in the environment, in small letters. -/
def Field.variable (f : Field) : String := "ghci_bridge_" ++ f.name

/-- The last value that a variable has. -/
def lastValue (name : String) (values : List (String × Option String)) : Option String :=
  (values.reverse.find? fun v => foldName v.1 = name).bind Prod.snd

/-- The value of a setting in the environment. -/
def Sources.fromEnvironment (s : Sources) (f : Field) : Option String :=
  lastValue f.variable (s.environment.map fun v => (v.1, some v.2))

/-- The value of a setting in the environment file. -/
def Sources.fromFile (s : Sources) (f : Field) : Option String :=
  s.file.bind fun text => lastValue f.variable (EnvFile.read s.environment text).entries

/-- **The value that counts** for a setting. -/
def Sources.value (s : Sources) (f : Field) : Json :=
  match Json.lookup f.name s.given with
  | some v => v
  | none =>
    .text (((s.fromEnvironment f).or (s.fromFile f)).getD f.default)

/-- The text of a setting. -/
def Sources.text (s : Sources) (f : Field) : Except Problem String :=
  match s.value f with
  | .text t => .ok t
  | _ => .error ⟨[f.name], .notText⟩

/-- The command of the settings, without blanks at its ends. -/
def Sources.command (s : Sources) : Except Problem String := do
  let t ← s.text .command
  if strip t = "" then .error ⟨[Field.command.name], .blankCommand⟩ else .ok (strip t)

/-- The level of the settings. -/
def Sources.level (s : Sources) : Except Problem Log.Level := do
  let t ← s.text .level
  match Log.Level.ofName? (upper (strip t)) with
  | some l => .ok l
  | none => .error ⟨[Field.level.name], .unknownLevel⟩

/-- The problem of a value that has one. -/
def problem {α : Type} : Except Problem α → List Problem
  | .ok _ => []
  | .error p => [p]

/-- **Taking the settings** from their sources. -/
def load (s : Sources) : Except (List Problem) Settings :=
  match s.command, s.level, s.text .notificationNamespace, s.text .statusLabel with
  | .ok command, .ok level, .ok space, .ok label => .ok ⟨command, level, space, label⟩
  | command, level, space, label =>
    .error (problem command ++ problem level ++ problem space ++ problem label)

end Settings

end GhciRelay
