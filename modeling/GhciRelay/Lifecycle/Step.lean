import GhciRelay.Lifecycle.Server

/-!
# Moves

A run of the server is a sequence of moves. Some come from the editor, which begins tasks; some from
the processes, which write, close their outputs and exit; some are the answers that a task waits for;
the others are turns of the server's own: the lock is granted, output is pumped, the end of a session
is noted and then reported. `Server.step` says what each of them does, and `none` that it is not
possible. Which of the possible moves comes next is left open.
-/

namespace GhciRelay

open GhciRelay.LaunchCommand (Reply)

/-- **A move.** -/
inductive Move where
  /-- a task that takes the lock begins -/
  | request (job : Job)
  /-- a task that only asks the editor for the command begins -/
  | inquire
  /-- the editor has saved a file -/
  | save (uri : String)
  /-- a command is to be sent -/
  | send (command : String)
  /-- the workspace gets another root -/
  | relocate (root : Option String)
  /-- the first task that waits gets the lock -/
  | grant
  /-- the session that is being stopped has ended -/
  | stopped
  /-- the session that is being stopped does not end in time -/
  | expired
  /-- the editor answers a task -/
  | answer (task : Nat) (reply : Reply)
  /-- the process is started -/
  | spawned (pid : Nat)
  /-- the process cannot be started -/
  | refused (e : OsError)
  /-- the task returns from the start of a process -/
  | resume
  /-- a process writes -/
  | write (pid : Nat) (channel : Channel) (chunk : List UInt8)
  /-- an output of a process ends -/
  | close (pid : Nat) (channel : Channel)
  /-- a process exits -/
  | exit (pid : Nat) (returnCode : Int)
  /-- an output of a process is pumped -/
  | pump (pid : Nat) (channel : Channel)
  /-- the end of a session is noted -/
  | finish (pid : Nat)
  /-- the end of a session is reported -/
  | report (pid : Nat)

namespace Server

/-- A server with one task more, and the number of that task. -/
def number (s : Server) : Server × Nat := ({ s with tasks := s.tasks + 1 }, s.tasks)

/-- **A task begins.** Shutting down begins before the lock is waited for. -/
def request (s : Server) (job : Job) : Turn :=
  let (s, n) := s.number
  ({ s with
      shuttingDown := s.shuttingDown || job = .shutdown
      queue := s.queue ++ [⟨n, job⟩] },
    if job = .initialized then [say "Initialized."] else [])

/-- A task that only asks the editor begins. -/
def inquire (s : Server) : Turn :=
  let (s, n) := s.number
  ({ s with inquiries := s.inquiries ++ [n] }, [.ask s.settings.notificationNamespace])

/-- The editor has saved a file: the interpreter loads its files again. -/
def saved (s : Server) (uri : String) : Turn :=
  let (s, n) := s.number
  let (s', effects) := s.reload
  (s'.record n .done, say ("Saved " ++ uri ++ ".") :: effects)

/-- A command is sent. -/
def sendTask (s : Server) (command : String) : Turn :=
  let (s, n) := s.number
  match s.send command with
  | .ok (s', effects) => (s'.record n .done, effects)
  | .error e => (s.record n (.failed (.session e)), [])

/-- The editor has answered a task that only asked. -/
def answerInquiry (s : Server) (n : Nat) (reply : Reply) : Turn :=
  let s' := { s with inquiries := s.inquiries.erase n }
  match s.commandOf reply with
  | .error e => (s'.record n (.failed (.reply e)), [])
  | .ok (command, effects) => (s'.record n (.command command), effects)

/-- The session of a process has ended. -/
def hasFinished (s : Server) (pid : Nat) : Bool :=
  match s.sessions.get? pid with
  | some v => v.session.finished.isSome
  | none => false

/-- The warning that the session of a process did not end in time. -/
def timeoutNotes (s : Server) (pid : Nat) : List Effect :=
  match s.sessions.get? pid with
  | some v => [.note v.session.timeoutNote]
  | none => []

/-- The end of a session is noted, if it has ended. -/
def finish? (s : Server) (pid : Nat) : Option Turn :=
  match s.sessions.get? pid with
  | none => none
  | some v =>
    if v.session.finished.isNone && v.session.ending?.isSome then some (s.onSession pid Session.finish)
    else none

/-- The process of a session changes. -/
def onProcess (s : Server) (pid : Nat) (f : Process → Process) : Turn :=
  s.onSession pid fun x => (x.mapProcess f, [])

section Step

variable (clock : Nat → Int)

/-- **What a move does.** The clock is read at the `k`-th preparation of a session as `clock k`. -/
def step (s : Server) : Move → Option Turn
  | .request job => some (s.request job)
  | .inquire => some s.inquire
  | .save uri => some (s.saved uri)
  | .send command => some (s.sendTask command)
  | .relocate root => some ({ s with workspace := root }, [])
  | .grant =>
    match s.holder, s.queue with
    | none, t :: rest => some ({ s with queue := rest }.acquire clock t)
    | _, _ => none
  | .stopped =>
    match s.holder with
    | some (t, .stopping pid) => if s.hasFinished pid then some (s.proceed clock t) else none
    | _ => none
  | .expired =>
    match s.holder with
    | some (t, .stopping pid) => some ((s.proceed clock t).after (s.timeoutNotes pid))
    | _ => none
  | .answer n reply =>
    match s.holder with
    | some (t, .asking) =>
      if t.number = n then some (s.answered clock t reply)
      else if n ∈ s.inquiries then some (s.answerInquiry n reply)
      else none
    | _ => if n ∈ s.inquiries then some (s.answerInquiry n reply) else none
  | .spawned pid =>
    match s.holder with
    | some (t, .spawning session sentinel) =>
      if s.sessions.contains pid then none else some (s.spawned t session sentinel pid, [])
    | _ => none
  | .refused e =>
    match s.holder with
    | some (t, .spawning session _) => some (s.refused t session e)
    | _ => none
  | .resume =>
    match s.holder with
    | some (t, .resuming pid sentinel) => some (s.resumed t pid sentinel)
    | _ => none
  | .write pid channel chunk => some (s.onProcess pid fun p => p.write channel chunk)
  | .close pid channel => some (s.onProcess pid fun p => p.closeChannel channel)
  | .exit pid returnCode => some (s.onProcess pid fun p => p.exit returnCode)
  | .pump pid channel => some (s.pump pid channel)
  | .finish pid => s.finish? pid
  | .report pid => s.report pid

/-- **A run**: moves one after the other, and everything that they do. -/
def run (s : Server) : List Move → Option Turn
  | [] => some (s, [])
  | m :: moves =>
    match s.step clock m with
    | none => none
    | some (s', effects) =>
      match s'.run moves with
      | none => none
      | some (s'', more) => some (s'', effects ++ more)

end Step

end Server

end GhciRelay
