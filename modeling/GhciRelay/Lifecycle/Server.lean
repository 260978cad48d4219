import GhciRelay.Config.LaunchCommand
import GhciRelay.Diagnostic.Aggregator
import GhciRelay.Output.Prompt
import GhciRelay.Process.Session

/-!
# The server

The server owns at most one current session of the interpreter and the diagnostics that it produced.
Tasks that start, restart or stop the interpreter take turns: a task holds the *lock* from the moment
that it is granted until it is concluded, and the others wait in a queue. A task that holds the lock
is at one of four *stages*, each of which waits for something from outside: the end of the session
that it stops, the editor's answer, the start of a process, or its own return from that start.

Every session that was attached is *supervised* until its end is reported; that happens outside the
lock.
-/

namespace GhciRelay

/-- **What a task is to do.** -/
inductive Job where
  | initialized
  | start (command : Option String)
  | restart
  | stop
  | shutdown
deriving DecidableEq

/-- The command with which a job launches the interpreter, if it does; without a command the editor
is asked for one. -/
def Job.launch? : Job → Option (Option String)
  | .initialized => some none
  | .start command => some command
  | .restart => some none
  | .stop => none
  | .shutdown => none

/-- A task that takes the lock, known by its number. -/
structure Task where
  number : Nat
  job : Job
deriving DecidableEq

/-- **What the task that holds the lock waits for.** -/
inductive Stage where
  /-- the end of the session of a process -/
  | stopping (pid : Nat)
  /-- the editor's answer -/
  | asking
  /-- the start of the process of a session -/
  | spawning (session : Session) (sentinel : Sentinel)
  /-- its return from the start of a process -/
  | resuming (pid : Nat) (sentinel : Sentinel)

/-- Why a task failed. -/
inductive Failure where
  | session (e : Session.Error)
  | reply (e : LaunchCommand.ReplyError)
deriving DecidableEq

/-- **How a task ended.** -/
inductive Outcome where
  | done
  | command (text : String)
  | failed (f : Failure)
deriving DecidableEq

/-- A session, and whether its end was reported. -/
structure Supervised where
  session : Session
  reported : Bool
deriving DecidableEq

/-- **The server**: its settings, the root of the workspace, the aggregator, every session by the
number of its process, the current one, whether the server shuts down, the task that holds the lock,
those that wait for it, those that only ask the editor, how many tasks there were, how often the clock
was read, and how tasks ended. -/
structure Server where
  settings : Settings
  workspace : Option String
  aggregator : Aggregator
  sessions : OrderedMap Nat Supervised
  current : Option Nat
  shuttingDown : Bool
  holder : Option (Task × Stage)
  queue : List Task
  inquiries : List Nat
  tasks : Nat
  readings : Nat
  outcomes : List (Nat × Outcome)

namespace Server

/-- What a step leads to: the server after it, and what it does. -/
abbrev Turn := Server × List Effect

/-- A server to which nothing has happened, in a working directory. -/
def start (settings : Settings) (workspace : Option String) (directory : String) : Server where
  settings := settings
  workspace := workspace
  aggregator := .start directory none Prompt.programName
  sessions := .empty
  current := none
  shuttingDown := false
  holder := none
  queue := []
  inquiries := []
  tasks := 0
  readings := 0
  outcomes := []

/-- The source of the entries that the server makes in the log. -/
def origin : String := "lsp.server"

/-- The effect of a line in the editor's log. -/
def say (text : String) : Effect := .tell (.log text)

/-- The effect of a status. -/
def status (text : String) : Effect := .tell (.status text)

/-- The status of a server without interpreter. -/
def stoppedStatus : Effect := status "Stopped"

/-- A turn with effects in front. -/
def Turn.after (t : Turn) (effects : List Effect) : Turn := (t.1, effects ++ t.2)

/-- The session of a process does something. -/
def onSession (s : Server) (pid : Nat) (f : Session → Session × List Effect) : Turn :=
  match s.sessions.get? pid with
  | none => (s, [])
  | some v =>
    let (x, effects) := f v.session
    ({ s with sessions := s.sessions.insert pid { v with session := x } }, effects)

/-- A task has ended. -/
def record (s : Server) (number : Nat) (outcome : Outcome) : Server :=
  { s with outcomes := s.outcomes ++ [(number, outcome)] }

/-- The task that holds the lock has ended and gives the lock back. -/
def conclude (s : Server) (t : Task) (outcome : Outcome) : Server :=
  { s with holder := none }.record t.number outcome

/-! ### Commands -/

/-- **Sending a command** to the current session. -/
def send (s : Server) (command : String) : Except Session.Error Turn :=
  match s.current.bind s.sessions.get? with
  | none => .error (.notRunning command)
  | some v =>
    match v.session.send command with
    | .error e => .error e
    | .ok effects =>
      let (a, more) := s.aggregator.commandSent command
      .ok ({ s with aggregator := a }, effects ++ more)

/-- The command that makes the interpreter load its files again. -/
def reloadCommand : String := ":reload"

/-- **Reloading**; without a live process it is only said that nothing happens. -/
def reload (s : Server) : Turn :=
  match s.send reloadCommand with
  | .ok t => t
  | .error e =>
    (s, [.note ⟨.warning, origin, "event=reload_skipped reason=" ++ e.message⟩,
      say (e.message ++ ". Restart GHCi to resume.")])

/-! ### Launching -/

section Launch

variable (clock : Nat → Int)

/-- **Preparing a session** for a command and starting its process: the aggregator is told the root
and the sentinel before anything is started. -/
def prepare (s : Server) (t : Task) (command : String) : Turn :=
  let sentinel := Prompt.sentinel (Prompt.milliseconds (clock s.readings))
  let a := { s.aggregator with root := s.workspace }.listen sentinel
  let session := Session.create command s.workspace
  ({ s with
      readings := s.readings + 1
      aggregator := a
      holder := some (t, .spawning session sentinel) },
    [say ("Spawning GHCi with: " ++ command), .spawn command s.workspace true])

/-- **Launching**, with the given command or else the one that the editor is asked for. A server that
shuts down launches nothing. -/
def launch (s : Server) (t : Task) (command : Option String) : Turn :=
  if s.shuttingDown then (s.conclude t .done, [])
  else
    let turn : Turn := match command with
      | some c => s.prepare clock t c
      | none =>
        ({ s with holder := some (t, .asking) }, [.ask s.settings.notificationNamespace])
    turn.after [say "Starting GHCi ...", status "Starting GHCi"]

/-- What a task does once no session is left: a restart takes back all diagnostics, and a job that
launches the interpreter does so. -/
def proceed (s : Server) (t : Task) : Turn :=
  let (s', effects) : Turn := if t.job = .restart then
      let (a, effects) := s.aggregator.retractAll
      ({ s with aggregator := a }, effects)
    else (s, [])
  let turn : Turn := match t.job.launch? with
    | none => (s'.conclude t .done, [])
    | some command => s'.launch clock t command
  turn.after effects

/-- What a task does first when it gets the lock: the current session, if there is one, is asked to
stop. -/
def acquire (s : Server) (t : Task) : Turn :=
  let turn : Turn := match s.current with
    | none => s.proceed clock t
    | some pid =>
      { s with current := none, holder := some (t, .stopping pid) }.onSession pid
        fun x => x.requestStop true
  turn.after (if t.job = .restart then [say "Stopping GHCi ...", status "Stopping GHCi"] else [])

/-- The command that an answer of the editor leads to. -/
def commandOf (s : Server) :
    LaunchCommand.Reply → Except LaunchCommand.ReplyError (String × List Effect)
  | .failed =>
    .ok (s.settings.command,
      [.note ⟨.warning, origin,
        "event=workspace_config_failed section=" ++ s.settings.notificationNamespace⟩])
  | .value j =>
    match LaunchCommand.firstItem j with
    | .error e => .error e
    | .ok item =>
      let (command, notes) := LaunchCommand.resolve item s.settings
      .ok (command, notes.map .note)

/-- The editor has answered the task that holds the lock. -/
def answered (s : Server) (t : Task) (reply : LaunchCommand.Reply) : Turn :=
  match s.commandOf reply with
  | .error e => (s.conclude t (.failed (.reply e)), [])
  | .ok (command, effects) => (s.prepare clock t command).after effects

end Launch

/-- The process could not be started. -/
def refused (s : Server) (t : Task) (session : Session) (e : OsError) : Turn :=
  (s.conclude t .done,
    [.note ⟨.error, origin,
      "event=ghci_spawn_failed command=" ++ session.command ++ " error=" ++ e.message⟩,
    .tell (.showError ("Could not start GHCi: " ++ e.message)), stoppedStatus])

/-- The process was started. -/
def spawned (s : Server) (t : Task) (session : Session) (sentinel : Sentinel) (pid : Nat) : Server :=
  { s with
    sessions := s.sessions.insert pid ⟨session.launch pid, false⟩
    holder := some (t, .resuming pid sentinel) }

/-- The task returns from the start of a process: its session is attached and becomes the current
one, and the prompt is installed in it. -/
def resumed (s : Server) (t : Task) (pid : Nat) (sentinel : Sentinel) : Turn :=
  let (s', effects) := s.onSession pid Session.attach
  let s' := { s' with current := some pid }
  match s'.send (Prompt.command sentinel.text) with
  | .error e => (s'.conclude t (.failed (.session e)), effects)
  | .ok (s'', more) => (s''.conclude t .done, effects ++ more)

/-! ### Sessions -/

/-- What happens to a line of a channel. -/
def listener : Channel → Aggregator → String → Aggregator.Result
  | .stdout => Aggregator.onStdout
  | .stderr => fun a line => .ok (a.onStderr line)

/-- **Pumping a channel** of a session into the aggregator. -/
def pump (s : Server) (pid : Nat) (channel : Channel) : Turn :=
  match s.sessions.get? pid with
  | none => (s, [])
  | some v =>
    let (x, a, effects) := v.session.pump (listener channel) channel s.aggregator
    ({ s with
      aggregator := a
      sessions := s.sessions.insert pid { v with session := x } }, effects)

/-- The session is no longer the current one. -/
def release (s : Server) (pid : Nat) : Server :=
  if s.current = some pid then { s with current := none } else s

/-- The end of a session is marked as reported. -/
def markReported (s : Server) (pid : Nat) (v : Supervised) : Server :=
  { s with sessions := s.sessions.insert pid { v with reported := true } }

/-- What is told about a session that ended badly by itself. -/
def crashReport (e : Exit) : List Effect :=
  [.note ⟨.error, origin,
    "event=ghci_crashed code=" ++ e.codeText ++ " signal=" ++ e.signalText⟩,
  say e.message, .tell (.showError (e.message ++ " Fix the problem, then restart GHCi.")),
  stoppedStatus]

/-- **Reporting the end of a session**, once, when it has ended. -/
def report (s : Server) (pid : Nat) : Option Turn :=
  match s.sessions.get? pid with
  | none => none
  | some v =>
    if v.reported then none
    else
      match v.session.wait with
      | .ok none => none
      | .error (.exited e) => some ((s.markReported pid v).release pid, crashReport e)
      | .error _ => none
      | .ok (some _) =>
        if v.session.stopRequested || s.shuttingDown then
          some (s.markReported pid v, [say "GHCi stopped."])
        else
          some ((s.markReported pid v).release pid,
            [say "GHCi exited successfully.", stoppedStatus])

/-- How many sessions are supervised. -/
def supervisors (s : Server) : Nat :=
  (s.sessions.values.filter fun v => v.session.attached && !v.reported).length

/-- The number of the current process, and whether it is alive. -/
def currentProcess (s : Server) : Option (Nat × Bool) :=
  s.current.map fun pid =>
    (pid, ((s.sessions.get? pid).map fun v => v.session.isRunning).getD false)

/-! ### What the editor can ask for -/

/-- The method that restarts the interpreter. -/
def restartMethod (settings : Settings) : String :=
  settings.notificationNamespace ++ "/restartGhci"

/-- The method under which statuses are sent. -/
def statusMethod (settings : Settings) : String :=
  settings.notificationNamespace ++ "/updateStatusBarItem"

/-- **The methods that the server handles**, in order of their names, and whether the text of a saved
file is to be sent along. -/
def features (settings : Settings) : List (String × Option Bool) :=
  [("initialized", none), ("shutdown", none), ("textDocument/didSave", some false),
    (restartMethod settings, none)].mergeSort fun a b => !decide (b.1 < a.1)

end Server

end GhciRelay
