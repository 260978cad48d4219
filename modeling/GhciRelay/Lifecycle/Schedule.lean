import GhciRelay.Lifecycle.Step

/-!
# A schedule

One way to play the server against a scripted world. The script holds the editor's answers and the
fate of every start; a process that is killed dies at once.

Turns are taken in order of arrival. Requests that are made together first run one after the other,
each until it has to wait. Then everything that can run does, in this order of precedence: a task
that has what it waited for without delay; output that has arrived; the ends of sessions, which are
noted and then reported; the task whose session has ended; the next task that waits for the lock; the
oldest of the editor's delayed answers. Only when nothing else is left does time pass, so that a
session that does not end is given up.
-/

namespace GhciRelay

open GhciRelay.LaunchCommand (Reply)

/-- **What the world will do**: the editor's answers, the fate of each start (nothing if it succeeds),
the number of the next process, and whether the editor's answers are delayed. A script that has run
out answers with an empty list, and starts succeed. -/
structure Script where
  replies : List Reply
  refusals : List (Option OsError)
  nextPid : Nat
  delayed : Bool

/-- **A play**: the server, the script, the answers that are still to come with the tasks that wait
for them, the channels that have something to pump, the time, and the effects so far with their times,
the last one first. -/
structure Play where
  server : Server
  script : Script
  asked : List (Nat × Reply)
  woken : List (Nat × Channel)
  now : Float
  effects : List (Float × Effect)

/-- **What is requested of a server** or of the world around it. What concerns a process concerns the
newest one. -/
inductive Request where
  | job (job : Job)
  | fetch
  | save (uri : String)
  | send (command : String)
  | write (channel : Channel) (chunk : List UInt8)
  | exit (returnCode : Int) (closing : Bool)
  | close
  | relocate (root : Option String)
  | clock (now : Float)

namespace Play

/-- The beginning of a play. -/
def start (server : Server) (script : Script) (now : Float) : Play :=
  ⟨server, script, [], [], now, []⟩

/-- A channel has something to pump. -/
def wake (p : Play) (pid : Nat) (channel : Channel) : Play :=
  if (pid, channel) ∈ p.woken then p else { p with woken := p.woken ++ [(pid, channel)] }

/-- A process changes without any effect. -/
def touch (p : Play) (pid : Nat) (f : Process → Process) : Play :=
  { p with server := (p.server.onProcess pid f).1 }

/-- A process dies and closes its outputs. -/
def die (p : Play) (pid : Nat) (returnCode : Int) : Play :=
  ((p.touch pid fun x => (x.exit returnCode).close).wake pid .stdout).wake pid .stderr

/-- The return code of a process that is killed. -/
def killedCode : Int := -9

/-- What an effect brings about in the world. -/
def react (p : Play) : Effect → Play
  | .killGroup pid => p.die pid killedCode
  | .kill pid => p.die pid killedCode
  | _ => p

/-- The tasks that wait for an answer of the editor. -/
def askers (s : Server) : List Nat :=
  match s.holder with
  | some (t, .asking) => t.number :: s.inquiries
  | _ => s.inquiries

/-- A task has asked: the next answer of the script is for it. -/
def ask (p : Play) (n : Nat) : Play :=
  match p.script.replies with
  | [] => { p with asked := p.asked ++ [(n, .value (.list []))] }
  | r :: rest =>
    { p with asked := p.asked ++ [(n, r)], script := { p.script with replies := rest } }

/-- Every task that has just asked gets its answer from the script. -/
def noteQuestions (p : Play) : Play :=
  ((askers p.server).filter fun n => !p.asked.any (·.1 = n)).foldl ask p

/-- What a turn leads to. -/
def absorb (p : Play) (turn : Server.Turn) : Play :=
  let p := { p with
    server := turn.1
    effects := (turn.2.map fun e => (p.now, e)).reverse ++ p.effects }
  (turn.2.foldl react p).noteQuestions

section Turns

variable (clock : Nat → Int)

/-- A move is made if it is possible. -/
def attempt (p : Play) (m : Move) : Option Play := (p.server.step clock m).map p.absorb

/-- A move is made, or nothing. -/
def perform (p : Play) (m : Move) : Play := (p.attempt clock m).getD p

/-- The start of a process succeeds or fails as the script says. -/
def spawn? (p : Play) : Option Play :=
  match p.script.refusals with
  | some e :: rest =>
    ({ p with script := { p.script with refusals := rest } }).attempt clock (.refused e)
  | refusals =>
    ({ p with
      script := { p.script with refusals := refusals.tail, nextPid := p.script.nextPid + 1 } }).attempt
      clock (.spawned p.script.nextPid)

/-- The oldest answer of the editor arrives. -/
def answer? (p : Play) : Option Play :=
  match p.asked with
  | [] => none
  | (n, r) :: rest => ({ p with asked := rest }).attempt clock (.answer n r)

/-- A task goes on that has what it waited for without delay. -/
def immediate? (p : Play) : Option Play :=
  (p.attempt clock .resume).or
    ((p.spawn? clock).or (if p.script.delayed then none else p.answer? clock))

/-- The channel that was woken first is pumped. -/
def pump? (p : Play) : Option Play :=
  match p.woken with
  | [] => none
  | (pid, channel) :: rest => ({ p with woken := rest }).attempt clock (.pump pid channel)

/-- The first of the moves that is possible is made. -/
def first? (p : Play) (moves : List Move) : Option Play := moves.findSome? (p.attempt clock)

/-- **The next turn**, as long as there is one. -/
def next? (p : Play) : Option Play :=
  let pids := p.server.sessions.keys
  (p.immediate? clock).or ((p.pump? clock).or
    ((p.first? clock (pids.map .finish ++ pids.map .report ++ [.stopped, .grant])).or
      ((p.answer? clock).or (p.attempt clock .expired))))

/-- At most `fuel` turns, as long as there is one. -/
def turns (next : Play → Option Play) : Nat → Play → Play
  | 0, p => p
  | fuel + 1, p =>
    match next p with
    | none => p
    | some p' => turns next fuel p'

/-- More turns than there can be before everything waits: a task takes at most five and starts at
most one session, and a session has two channels and one end. -/
def budget (p : Play) : Nat :=
  let s := p.server
  16 * (s.queue.length + s.inquiries.length + s.sessions.size + p.woken.length + 2)

/-- **Everything that can run runs.** -/
def settle (p : Play) : Play := turns (next? clock) p.budget p

/-- A task begins, takes the lock if it is free, and goes on as long as it need not wait. -/
def begin (p : Play) (m : Move) : Play :=
  let p := p.perform clock m
  let p := if p.server.holder.isNone then p.perform clock .grant else p
  turns (immediate? clock) p.budget p

/-- The newest process does something. -/
def onNewest (p : Play) (f : Play → Nat → Play) : Play :=
  match p.server.sessions.keys.getLast? with
  | none => p
  | some pid => f p pid

/-- **The first turn of a request.** -/
def request (p : Play) : Request → Play
  | .job job => p.begin clock (.request job)
  | .fetch => p.begin clock .inquire
  | .save uri => p.begin clock (.save uri)
  | .send command => p.begin clock (.send command)
  | .relocate root => p.perform clock (.relocate root)
  | .clock now => { p with now }
  | .write channel chunk => p.onNewest fun p pid =>
      (p.perform clock (.write pid channel chunk)).wake pid channel
  | .close => p.onNewest fun p pid =>
      (((p.perform clock (.close pid .stdout)).perform clock (.close pid .stderr)).wake pid .stdout).wake
        pid .stderr
  | .exit returnCode closing => p.onNewest fun p pid =>
      if closing then p.die pid returnCode else p.perform clock (.exit pid returnCode)

/-- **Requests that are made together**: each has its first turn, and then everything runs. -/
def together (p : Play) (requests : List Request) : Play :=
  (requests.foldl (request clock) p).settle clock

end Turns

/-- How the tasks ended that began when there had been `tasks` of them, in the order in which they
ended. -/
def outcomesSince (p : Play) (tasks : Nat) : List Outcome :=
  (p.server.outcomes.filter fun o => tasks ≤ o.1).map Prod.snd

end Play

end GhciRelay
