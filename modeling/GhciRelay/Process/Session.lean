import GhciRelay.Process.Exit
import GhciRelay.Process.LineReader
import GhciRelay.Process.OsError

/-!
# Sessions

A session is one run of the interpreter. Its process is started once; from the moment the session is
*attached* its two outputs are pumped, each by itself. When both outputs have ended and the process
has exited the session is *finished*: every line has then been handed on. A session can be asked to
stop at any time; the process is then killed if it is still alive, and however it ends counts as
wanted.

Every function here is one step of a session. What may happen in between, and in which order, is
left to whoever runs it.
-/

namespace GhciRelay

/-- A process: its number, the return code with which it exited, its two outputs, and whether each of
them has been taken to its end. -/
structure Process where
  pid : Nat
  returnCode : Option Int
  out : LineReader
  err : LineReader
  outDone : Bool
  errDone : Bool
deriving DecidableEq

namespace Process

/-- A process that has just been started. -/
def fresh (pid : Nat) : Process := ⟨pid, none, .fresh, .fresh, false, false⟩

/-- The process is alive. -/
def isAlive (p : Process) : Bool := p.returnCode.isNone

/-- The reader of a channel. -/
def reader (p : Process) : Channel → LineReader
  | .stdout => p.out
  | .stderr => p.err

/-- A process with another reader for a channel. -/
def setReader (p : Process) (r : LineReader) : Channel → Process
  | .stdout => { p with out := r }
  | .stderr => { p with err := r }

/-- The process writes to a channel. -/
def write (p : Process) (channel : Channel) (chunk : List UInt8) : Process :=
  p.setReader ((p.reader channel).arrive chunk) channel

/-- A channel ends. -/
def closeChannel (p : Process) (channel : Channel) : Process :=
  p.setReader (p.reader channel).close channel

/-- Both channels end. -/
def close (p : Process) : Process := (p.closeChannel .stdout).closeChannel .stderr

/-- The process exits; it does so once. -/
def exit (p : Process) (returnCode : Int) : Process :=
  if p.isAlive then { p with returnCode := some returnCode } else p

end Process

/-- **A session.** -/
structure Session where
  command : String
  directory : Option String
  process : Option Process
  attached : Bool
  stopRequested : Bool
  finished : Option Int
deriving DecidableEq

namespace Session

/-- Why something cannot be done with a session. -/
inductive Error where
  | alreadyStarted
  | notRunning (command : String)
  | neverStarted
  | exited (e : Exit)
  | refused (e : OsError)
deriving DecidableEq

/-- The words in which it is refused. -/
def Error.message : Error → String
  | .alreadyStarted => "GHCi session already started"
  | .notRunning command => "GHCi is not running: " ++ command
  | .neverStarted => "GHCi session was never started"
  | .exited e => e.message
  | .refused e => e.message

/-- The source of the entries that a session makes in the log. -/
def origin : String := "ghci.session"

/-- The longest line that is taken from the interpreter, in bytes. -/
def lineLimit : Nat := 1048576

/-- A session that is to run a command in a directory. -/
def create (command : String) (directory : Option String) : Session :=
  ⟨command, directory, none, false, false, none⟩

/-- The number of the process. -/
def pid? (s : Session) : Option Nat := s.process.map (·.pid)

/-- The process has been started and is alive. -/
def isRunning (s : Session) : Bool :=
  match s.process with
  | some p => p.isAlive
  | none => false

/-- A session whose process has changed. -/
def mapProcess (s : Session) (f : Process → Process) : Session :=
  { s with process := s.process.map f }

/-- The process is there. -/
def launch (s : Session) (pid : Nat) : Session := { s with process := some (.fresh pid) }

/-- **Attaching**: from now on the outputs of the process are pumped. -/
def attach (s : Session) : Session × List Effect :=
  match s.process with
  | none => (s, [])
  | some p =>
    ({ s with attached := true },
      [.note ⟨.info, origin,
        "event=ghci_spawned pid=" ++ toString p.pid ++ " command=" ++ s.command⟩])

/-- **Sending a command**: it is written as one line, and not waited for. -/
def send (s : Session) (command : String) : Except Error (List Effect) :=
  match s.process with
  | none => .error (.notRunning command)
  | some p =>
    if p.isAlive then .ok [.write p.pid (command ++ "\n")] else .error (.notRunning command)

section Pump

variable {σ ε : Type} (handler : σ → String → Except ε (σ × List Effect))

/-- The channel of the process is done once its end has been reached. -/
def markDone (p : Process) (channel : Channel) : Process :=
  match channel with
  | .stdout => { p with outDone := p.out.ended }
  | .stderr => { p with errDone := p.err.ended }

/-- **Pumping one channel** until there is nothing to take. -/
def pump (s : Session) (channel : Channel) (state : σ) : Session × σ × List Effect :=
  match s.process with
  | none => (s, state, [])
  | some p =>
    if s.attached then
      let (r, state', effects) := (p.reader channel).pump channel handler lineLimit state
      ({ s with process := some (markDone (p.setReader r channel) channel) }, state', effects)
    else (s, state, [])

end Pump

/-- All output has been handed on and the process has exited: the return code. -/
def ending? (s : Session) : Option Int :=
  match s.process with
  | some p => if s.attached && p.outDone && p.errDone then p.returnCode else none
  | none => none

/-- A truth value as it is shown in the log. -/
def shown (b : Bool) : String := if b then "True" else "False"

/-- **Finishing**: the end of a session is noted, once. -/
def finish (s : Session) : Session × List Effect :=
  match s.finished, s.process, s.ending? with
  | none, some p, some code =>
    ({ s with finished := some code },
      [.note ⟨.info, origin, "event=ghci_exited pid=" ++ toString p.pid ++ " returncode="
        ++ toString code ++ " requested=" ++ shown s.stopRequested⟩])
  | _, _, _ => (s, [])

/-- **Waiting** for the end: the return code, nothing as long as the session is not finished, an
error if it ended badly and nobody had asked it to stop. -/
def wait (s : Session) : Except Error (Option Int) :=
  if s.attached then
    match s.finished with
    | none => .ok none
    | some code =>
      let e := Exit.ofReturnCode code
      if s.stopRequested || e.isClean then .ok (some code) else .error (.exited e)
  else .error .neverStarted

/-- **Asking a session to stop**: a process that is still alive is killed. -/
def requestStop (s : Session) (ownGroup : Bool) : Session × List Effect :=
  match s.process with
  | none => (s, [])
  | some p =>
    ({ s with stopRequested := true },
      if p.isAlive then [if ownGroup then .killGroup p.pid else .kill p.pid] else [])

/-- The warning that a session did not end in time. -/
def timeoutNote (s : Session) : Log.Entry :=
  ⟨.warning, origin, "event=ghci_stop_timeout pid=" ++ toString (s.pid?.getD 0)⟩

end Session

end GhciRelay
