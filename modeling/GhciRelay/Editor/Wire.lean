import GhciRelay.Binary64
import GhciRelay.Editor.Call
import GhciRelay.Log

/-!
# The wire to the editor

Each call to the editor is one message on the wire. A status is sent under a method and with a label
of its own; a line of the editor's log begins with the seconds since a given moment, with three
decimal places.
-/

namespace GhciRelay.Editor

/-- **A message to the editor.** -/
inductive Message where
  | publish (uri : String) (diagnostics : List Diagnostic)
  | notify (method text : String)
  | log (text : String)
  | alert (text : String)
deriving DecidableEq

/-- **A wire**: the method and the label of statuses, and the moment from which time is counted. -/
structure Wire where
  statusMethod : String
  statusLabel : String
  epoch : Float

namespace Wire

/-- The decimal places of the seconds. -/
def places : Nat := 3

/-- The message for a call that is made at the moment `now`. -/
def message (w : Wire) (now : Float) : Call → Message
  | .publish uri ds => .publish uri ds
  | .status text => .notify w.statusMethod (w.statusLabel ++ ": " ++ text)
  | .log text => .log (Binary64.fixed places (now - w.epoch) ++ " " ++ text)
  | .showError text => .alert text

/-- The entry of the log that sending a call makes. -/
def note? : Call → Option Log.Entry
  | .publish uri ds =>
    some ⟨.debug, "lsp.client",
      "event=publish_diagnostics uri=" ++ uri ++ " count=" ++ toString ds.length⟩
  | _ => none

end Wire

end GhciRelay.Editor
