import GhciRelay.Text.Quoted

/-!
# Refusals of the operating system

Why a process could not be started: a number, a text, and perhaps the file that it is about; or a
text alone.
-/

namespace GhciRelay

/-- **A refusal of the operating system.** -/
inductive OsError where
  | described (text : String)
  | numbered (number : Int) (text : String) (file : Option String)
deriving DecidableEq

/-- The words of a refusal. -/
def OsError.message : OsError → String
  | .described text => text
  | .numbered number text file =>
    "[Errno " ++ toString number ++ "] " ++ text
      ++ (match file with
        | some f => ": " ++ Text.quoted f
        | none => "")

end GhciRelay
