import GhciRelay.Config.Settings

/-!
# The command that starts the interpreter

The editor can configure a command. It is asked for its settings and answers with a list, whose first
item is an object; the command stands in it as the member `command` of the member `ghci`. Whatever
the editor says that is of no use, the command of the settings is taken instead.
-/

namespace GhciRelay.LaunchCommand

open GhciRelay.Text

/-- The text without blanks at its ends; nothing, if nothing is left. -/
def nonblank? (s : String) : Option String := if strip s = "" then none else some (strip s)

/-- The command in the editor's section on the interpreter. -/
def ofSection (j : Json) : Except Problem (Option String) :=
  match j with
  | .object members =>
    match Json.lookup "command" members with
    | none => .ok none
    | some .null => .ok none
    | some (.text t) => .ok (nonblank? t)
    | some _ => .error ⟨["ghci", "command"], .notText⟩
  | _ => .error ⟨["ghci"], .notObject "GhciConfig"⟩

/-- **The command that the editor configures.** -/
def ofEditor (j : Json) : Except Problem (Option String) :=
  match j with
  | .object members =>
    match Json.lookup "ghci" members with
    | none => .ok none
    | some inner => ofSection inner
  | _ => .error ⟨[], .notObject "WorkspaceConfig"⟩

/-- The warning that the editor's settings are of no use. -/
def invalidNote : Log.Entry := ⟨.warning, "config", "event=workspace_config_invalid errors=1"⟩

/-- **The command to run**, and what is to be noted about it. -/
def resolve (j : Json) (settings : Settings) : String × List Log.Entry :=
  match j with
  | .null => (settings.command, [])
  | j =>
    match ofEditor j with
    | .ok command => (command.getD settings.command, [])
    | .error _ => (settings.command, [invalidNote])

/-! ### Replies -/

/-- What the editor answers when it is asked for its settings. -/
inductive Reply where
  | failed
  | value (j : Json)

/-- Why a reply has no first item. -/
inductive ReplyError where
  | noFirstMember
  | notIndexed (kind : String)
deriving DecidableEq

/-- The words for a reply without a first item. -/
def ReplyError.message : ReplyError → String
  | .noFirstMember => "0"
  | .notIndexed kind => apostrophe.toString ++ kind ++ apostrophe.toString ++ " object is not subscriptable"

/-- The first item of a number: zero has none. -/
def ofNumber : Json.Number → Except ReplyError Json
  | .integer n => if n = 0 then .ok .null else .error (.notIndexed "int")
  | .decimal _ mantissa _ => if mantissa = 0 then .ok .null else .error (.notIndexed "float")
  | .nan => .error (.notIndexed "float")
  | .infinite _ => .error (.notIndexed "float")

/-- **The first item of a reply**; a reply that says nothing has none. -/
def firstItem : Json → Except ReplyError Json
  | .null => .ok .null
  | .bool b => if b then .error (.notIndexed "bool") else .ok .null
  | .number n => ofNumber n
  | .text s =>
    match s.toList with
    | [] => .ok .null
    | c :: _ => .ok (.text c.toString)
  | .list [] => .ok .null
  | .list (item :: _) => .ok item
  | .object [] => .ok .null
  | .object (_ :: _) => .error .noFirstMember

end GhciRelay.LaunchCommand
