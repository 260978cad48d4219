import GhciRelay.Diagnostic.Index
import GhciRelay.Effect
import GhciRelay.Location.FileUri

/-!
# The aggregator

The aggregator takes the output of the interpreter line by line, keeps the index of diagnostics, and
tells the editor about it. After every change each tracked file is published with all its
diagnostics, and a file that was published without any is forgotten. So what the editor shows is
what the index holds.

A line that cannot be handled is refused as a whole: the error stands in place of the new state, and
nothing has been told to the editor.
-/

namespace GhciRelay

/-- Whether the interpreter works on a command. -/
inductive Activity where
  | idle
  | busy
deriving DecidableEq

/-- **The aggregator**: the directory that paths are relative to when there is no root, the root, the
source that diagnostics name, the index, the sentinel of the present session, and whether the
interpreter is busy. -/
structure Aggregator where
  directory : String
  root : Option String
  source : String
  index : Index
  sentinel : Option Sentinel
  activity : Activity

namespace Aggregator

open GhciRelay.Text

/-- Why a line cannot be handled. -/
inductive Error where
  | noSession
  | emptySentinel
  | tooManyDigits (e : TooManyDigits)
  | relativePath
  | offset (e : OffsetError)
deriving DecidableEq

/-- The words in which a line is refused. -/
def Error.message : Error → String
  | .noSession => "No GHCi session. Call begin_session(prompt) first."
  | .emptySentinel => Sentinel.emptyMessage
  | .tooManyDigits e => e.message
  | .relativePath => FileUri.relativeMessage
  | .offset e => e.message

/-- What an operation returns: the new state and what it does, or why it cannot be done. -/
abbrev Result := Except Error (Aggregator × List Effect)

/-- An aggregator that has seen nothing. -/
def start (directory : String) (root : Option String) (source : String) : Aggregator :=
  ⟨directory, root, source, .empty, none, .idle⟩

/-- The source of the entries that the aggregator makes in the log. -/
def origin : String := "diagnostics.aggregator"

/-- The URI of a file that the compiler names. -/
def uriOf (a : Aggregator) (path : String) : Except Error String :=
  match FileUri.ofPath? (a.root.getD a.directory) path with
  | some uri => .ok uri
  | none => .error .relativePath

/-- **A session begins**, whose prompt is the given sentinel. -/
def listen (a : Aggregator) (s : Sentinel) : Aggregator :=
  { a with sentinel := some s, activity := .idle }

/-- A session begins, whose prompt is the given text. -/
def beginSession (a : Aggregator) (prompt : String) : Except Error Aggregator :=
  match Sentinel.ofText? prompt with
  | some s => .ok (a.listen s)
  | none => .error .emptySentinel

/-- A command was sent to the interpreter. -/
def commandSent (a : Aggregator) (command : String) : Aggregator × List Effect :=
  ({ a with activity := .busy },
    [.tell (.log ("[stdin] " ++ command)), .tell (.status ("Running " ++ command))])

/-- **Publishing**: each tracked file with its diagnostics, and those without any are forgotten. -/
def republish (a : Aggregator) : Aggregator × List Effect :=
  ({ a with index := a.index.prune },
    a.index.snapshots.map fun s => .tell (.publish s.1 s.2))

/-- **Taking everything back**: each tracked file is published without diagnostics. -/
def retractAll (a : Aggregator) : Aggregator × List Effect :=
  let (a', effects) := { a with index := a.index.clearAll }.republish
  (a', effects
    ++ [.note ⟨.debug, origin, "event=diagnostics_retracted files=" ++ toString a.index.size⟩])

/-- A report of the compiler. -/
def handleReport (a : Aggregator) (r : Report) : Result := do
  let uri ← a.uriOf r.span.file
  let d ← (r.diagnostic a.source).mapError .offset
  return { a with index := a.index.upsert uri r.key d }.republish

/-- The compiler begins with a module. -/
def handleBanner (a : Aggregator) (b : Banner) : Result := do
  let uri ← a.uriOf b.sourcePath
  let (a', effects) := { a with index := a.index.clear uri }.republish
  return (a',
    .note ⟨.debug, origin, "event=compiling module=" ++ b.moduleName ++ " uri=" ++ uri⟩ :: effects)

/-- **Handling a record.** -/
def handle (a : Aggregator) : Record → Result
  | .report r => a.handleReport r
  | .compiling b => a.handleBanner b
  | .prompt _ => .ok ({ a with activity := .idle }, [.tell (.status "Idle")])
  | .interactive line => .ok (a, [.tell (.log ("[stdout] " ++ line))])
  | .plain line => .ok (a, [.tell (.log ("[stdout] " ++ line))])

/-- **A line of output.** -/
def onStdout (a : Aggregator) (line : String) : Result :=
  match a.sentinel with
  | none => .error .noSession
  | some s =>
    match s.classify line with
    | .ok record => a.handle record
    | .error e => .error (.tooManyDigits e)

/-- A line of error output. -/
def onStderr (a : Aggregator) (line : String) : Aggregator × List Effect :=
  (a, [.tell (.log ("[stderr] " ++ stripLineEnd line))])

end Aggregator

end GhciRelay
