import GhciRelay.Process.Session

/-!
# A session with a scripted process

A session that is played against a process of which everything is given: whether it can be started,
what it writes, when it exits, and how it takes being killed. After each act everything that can run
does: both outputs are pumped, and the end of the session is noted when it has come.
-/

namespace GhciRelay

/-- **How a process takes being killed**: it dies, it goes on, or it had just ended by itself. -/
inductive KillReaction where
  | dies
  | ignores
  | isGone
deriving DecidableEq

/-- **A simulation**: the session, whether processes have a group of their own, how they take being
killed, the fate of each start (nothing if it succeeds), the number of the next process, and the lines
at which the listener fails. -/
structure Simulation where
  session : Session
  ownGroup : Bool
  reaction : KillReaction
  refusals : List (Option OsError)
  nextPid : Nat
  deafTo : List String

/-- **An act** of the session's owner or of its process. -/
inductive Act where
  | start
  | send (command : String)
  | write (channel : Channel) (chunk : List UInt8)
  | exit (returnCode : Int) (closing : Bool)
  | close
  | wait
  | stop (patient : Bool)

namespace Simulation

/-- What an act returns. -/
inductive Answer where
  | nothing
  | code (returnCode : Int)
  | pending
deriving DecidableEq

/-- Why an act fails. -/
inductive Error where
  | session (e : Session.Error)
  | processGone
deriving DecidableEq

/-- The words in which an act fails. -/
def Error.message : Error → String
  | .session e => e.message
  | .processGone => OsError.message (.numbered 3 "No such process" none)

/-- What an act leads to: the simulation after it, its answer, and what it does. -/
structure Result where
  simulation : Simulation
  answer : Except Error Answer
  effects : List Effect

/-- **What is seen of an act**: also the lines that were heard. -/
structure Seen where
  simulation : Simulation
  answer : Except Error Answer
  effects : List Effect
  stdout : List String
  stderr : List String

/-- The answer that a return code is. -/
def Answer.ofCode? : Option Int → Answer
  | none => .nothing
  | some n => .code n

/-- A listener that remembers lines, the last one first, and fails at some. -/
def hear (deafTo heard : List String) (line : String) : Except Unit (List String × List Effect) :=
  if deafTo.contains line then .error () else .ok (line :: heard, [])

/-- **Everything that can run runs**: what was heard on each channel, and the effects. -/
def settle (m : Simulation) : Simulation × List String × List String × List Effect :=
  let (x, out, e₁) := m.session.pump (hear m.deafTo) .stdout []
  let (x, err, e₂) := x.pump (hear m.deafTo) .stderr []
  let (x, e₃) := x.finish
  ({ m with session := x }, out.reverse, err.reverse, e₁ ++ e₂ ++ e₃)

/-- The process changes. -/
def onProcess (m : Simulation) (f : Process → Process) : Simulation :=
  { m with session := m.session.mapProcess f }

/-- Nothing comes of an act but an answer. -/
def plain (m : Simulation) (answer : Except Error Answer) : Result := ⟨m, answer, []⟩

/-- The session is started, once. -/
def start (m : Simulation) : Result :=
  if m.session.process.isSome then m.plain (.error (.session .alreadyStarted))
  else
    let spawn := Effect.spawn m.session.command m.session.directory m.ownGroup
    match m.refusals with
    | some e :: rest =>
      ⟨{ m with refusals := rest }, .error (.session (.refused e)), [spawn]⟩
    | refusals =>
      let (x, effects) := (m.session.launch m.nextPid).attach
      ⟨{ m with session := x, refusals := refusals.tail, nextPid := m.nextPid + 1 }, .ok .nothing,
        spawn :: effects⟩

/-- The process is killed. -/
def kill (m : Simulation) : Simulation × Except Error Unit :=
  match m.reaction with
  | .dies => (m.onProcess fun p => (p.exit (-9)).close, .ok ())
  | .ignores => (m, .ok ())
  | .isGone =>
    (m.onProcess fun p => (p.exit 0).close, if m.ownGroup then .ok () else .error .processGone)

/-- The return code of the process, if it has exited. -/
def returnCode? (m : Simulation) : Option Int := m.session.process.bind (·.returnCode)

/-- The answer to waiting. -/
def waited (x : Session) : Except Error Answer :=
  match x.wait with
  | .ok none => .ok .pending
  | .ok (some n) => .ok (.code n)
  | .error e => .error (.session e)

/-- The process is asked to stop, and killed if it is alive. -/
def requestStop (m : Simulation) : Simulation × Except Error Unit × List Effect :=
  let alive := m.session.isRunning
  let (x, effects) := m.session.requestStop m.ownGroup
  let m := { m with session := x }
  if alive then
    let (m, killed) := m.kill
    (m, killed, effects)
  else (m, .ok (), effects)

/-- **Stopping**: the session is asked to stop and waited for. Whoever has no patience gives up
whatever happens. -/
def stop (m : Simulation) (patient : Bool) : Seen :=
  if m.session.process.isNone then ⟨m, .ok .nothing, [], [], []⟩
  else
    let (m, killed, e₁) := m.requestStop
    let (m, out, err, e₂) := m.settle
    match killed with
    | .error e => ⟨m, .error e, e₁ ++ e₂, out, err⟩
    | .ok () =>
      if patient && m.session.finished.isSome then
        ⟨m, .ok (.ofCode? m.session.finished), e₁ ++ e₂, out, err⟩
      else
        ⟨m, .ok (.ofCode? m.returnCode?), e₁ ++ e₂ ++ [.note m.session.timeoutNote], out, err⟩

/-- Everything that follows from a result. -/
def Result.follow (r : Result) : Seen :=
  let (m, out, err, more) := r.simulation.settle
  ⟨m, r.answer, r.effects ++ more, out, err⟩

/-- The process does something by itself. -/
def happen (m : Simulation) (f : Process → Process) : Seen :=
  ((m.onProcess f).plain (.ok .nothing)).follow

/-- **An act and all that follows from it.** -/
def step (m : Simulation) : Act → Seen
  | .start => m.start.follow
  | .send command =>
    match m.session.send command with
    | .ok effects => Result.follow ⟨m, .ok .nothing, effects⟩
    | .error e => (m.plain (.error (.session e))).follow
  | .write channel chunk => m.happen fun p => p.write channel chunk
  | .exit returnCode closing =>
    m.happen fun p => if closing then (p.exit returnCode).close else p.exit returnCode
  | .close => m.happen Process.close
  | .wait => (m.plain (waited m.session)).follow
  | .stop patient => m.stop patient

end Simulation

end GhciRelay
