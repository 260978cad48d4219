import GhciRelay.Diagnostic.Basic

/-!
# Calls to the editor

The four things that the editor can be asked to do, and a recorder that remembers them.
-/

namespace GhciRelay.Editor

/-- **A call to the editor.** -/
inductive Call where
  | publish (uri : String) (diagnostics : List Diagnostic)
  | status (text : String)
  | log (text : String)
  | showError (text : String)
deriving DecidableEq

/-- The file and the diagnostics that a call publishes. -/
def Call.publication? : Call → Option (String × List Diagnostic)
  | .publish uri ds => some (uri, ds)
  | _ => none

/-- What an editor last received for a file: nothing if it never received anything for it. -/
def lastPublished (uri : String) (calls : List Call) : Option (List Diagnostic) :=
  (calls.reverse.filterMap Call.publication?).lookup uri

end GhciRelay.Editor
