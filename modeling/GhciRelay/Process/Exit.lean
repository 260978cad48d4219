/-!
# How a process ends

A process ends with a code, or is killed by a signal; a return code tells the two apart by its sign.
-/

namespace GhciRelay

/-- **The end of a process.** -/
inductive Exit where
  | code (n : Nat)
  | signal (n : Nat)
deriving DecidableEq

namespace Exit

/-- The end that a return code stands for: signal `n` is reported as `-n`. -/
def ofReturnCode (r : Int) : Exit := if 0 ≤ r then .code r.toNat else .signal (-r).toNat

/-- The process ended without complaint. -/
def isClean : Exit → Bool
  | .code n => n == 0
  | .signal _ => false

/-- The signals that have a name, without their common beginning. -/
def signalNames : List (Nat × String) := [
  (1, "HUP"), (2, "INT"), (3, "QUIT"), (4, "ILL"), (5, "TRAP"), (6, "ABRT"), (7, "BUS"), (8, "FPE"),
  (9, "KILL"), (10, "USR1"), (11, "SEGV"), (12, "USR2"), (13, "PIPE"), (14, "ALRM"), (15, "TERM"),
  (16, "STKFLT"), (17, "CHLD"), (18, "CONT"), (19, "STOP"), (20, "TSTP"), (21, "TTIN"), (22, "TTOU"),
  (23, "URG"), (24, "XCPU"), (25, "XFSZ"), (26, "VTALRM"), (27, "PROF"), (28, "WINCH"), (29, "IO"),
  (30, "PWR"), (31, "SYS"), (34, "RTMIN"), (64, "RTMAX")]

/-- The name of a signal; one without a name is called by its number. -/
def signalName (n : Nat) : String := "SIG" ++ (signalNames.lookup n).getD (toString n)

/-- The code, if the process ended with one. -/
def code? : Exit → Option Nat
  | .code n => some n
  | .signal _ => none

/-- The name of the signal, if the process was killed by one. -/
def signal? : Exit → Option String
  | .code _ => none
  | .signal n => some (signalName n)

/-- The code as it is shown. -/
def codeText (e : Exit) : String := (e.code?.map toString).getD "None"

/-- The signal as it is shown. -/
def signalText (e : Exit) : String := e.signal?.getD "None"

/-- **The words** in which the end of the interpreter is reported. -/
def message (e : Exit) : String :=
  "GHCi exited with " ++ e.codeText ++ " (" ++ e.signalText ++ ")!"

end Exit

end GhciRelay
