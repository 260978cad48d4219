import GhciRelay.Editor.Call
import GhciRelay.Log

/-!
# Effects

What the program does to the world around it, as values: it calls the editor, asks the editor for
its settings, starts processes, writes to them and kills them, and notes what happens in its log. A
computation returns the list of its effects in the order in which they take place.
-/

namespace GhciRelay

/-- **An effect.** -/
inductive Effect where
  /-- a call to the editor -/
  | tell (call : Editor.Call)
  /-- an entry of the log -/
  | note (entry : Log.Entry)
  /-- the editor is asked for a section of its settings -/
  | ask (name : String)
  /-- a command is started in a directory, in a process group of its own or not -/
  | spawn (command : String) (directory : Option String) (ownGroup : Bool)
  /-- a text is written to the input of a process -/
  | write (pid : Nat) (text : String)
  /-- the group of a process is sent the kill signal -/
  | killGroup (pid : Nat)
  /-- a process is killed -/
  | kill (pid : Nat)
deriving DecidableEq

namespace Effect

/-- The call to the editor that an effect is. -/
def call? : Effect → Option Editor.Call
  | .tell c => some c
  | _ => none

/-- The entry of the log that an effect is. -/
def entry? : Effect → Option Log.Entry
  | .note e => some e
  | _ => none

/-- The calls to the editor among effects. -/
def calls (effects : List Effect) : List Editor.Call := effects.filterMap call?

/-- The entries of the log among effects. -/
def entries (effects : List Effect) : List Log.Entry := effects.filterMap entry?

end Effect

end GhciRelay
