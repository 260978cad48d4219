import GhciRelay.CommandLine.Program

/-!
# The entry point

The outer layer of the program: it collects the arguments, the environment and the environment file,
and prints what a run has to say. Connections to the editor are opened by whoever embeds the server.
-/

open GhciRelay

/-- The variables of the environment that belong to settings. -/
def readEnvironment : IO (List (String × String)) := do
  let fields : List Settings.Field := [.command, .level, .notificationNamespace, .statusLabel]
  let found ← fields.mapM fun f => do
    let name := Text.upper f.variable
    return (← IO.getEnv name).map fun value => (name, value)
  return found.filterMap id

/-- The environment file of the working directory, if there is one. -/
def readEnvironmentFile : IO (Option String) := do
  try
    return some (← IO.FS.readFile ".env")
  catch _ =>
    return none

/-- A problem of the configuration as a line. -/
def problemLine (p : Problem) : String := ".".intercalate p.path ++ ": " ++ p.message

/-- The program. -/
def main (arguments : List String) : IO UInt32 := do
  match CommandLine.run arguments (← readEnvironment) (← readEnvironmentFile) with
  | .exited code stdout stderr =>
    IO.print stdout
    IO.eprint stderr
    return code.toUInt32
  | .printed stdout =>
    IO.print stdout
    return 0
  | .misconfigured problems =>
    for p in problems do
      IO.eprintln (problemLine p)
    return 1
  | .served _ log =>
    for e in log do
      IO.eprintln e.line
    return 0
