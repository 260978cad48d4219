import GhciRelay.Lifecycle.Step
import GhciRelay.Proofs.Aggregator
import GhciRelay.Proofs.OrderedMap
import GhciRelay.Proofs.Session

/-!
# What a move can do

`Turns` lists the moves that are possible, each with what has to hold for it and what it leads to;
everything else is derived from `step_turns`. This module follows the sessions:

* `step_session`: what becomes of the session of each process. A move touches the session of at most
  one process, and `deed` says how.
* `step_spawned`: the only way in which there is a new session.

`run_induction` carries what every move keeps along a run.
-/

namespace GhciRelay.Server

variable {clock : Nat → Int}

/-- The session of a process. -/
def sessionOf (s : Server) (pid : Nat) : Option Session := (s.sessions.get? pid).map (·.session)

/-! ### Moves that are possible -/

/-- **What a move needs and leads to.** -/
inductive Turns (clock : Nat → Int) (s : Server) : Move → Turn → Prop
  | request (job : Job) : Turns clock s (.request job) (s.request job)
  | inquire : Turns clock s .inquire s.inquire
  | save (uri : String) : Turns clock s (.save uri) (s.saved uri)
  | send (command : String) : Turns clock s (.send command) (s.sendTask command)
  | relocate (root : Option String) :
    Turns clock s (.relocate root) ({ s with workspace := root }, [])
  | grant (k : Task) (rest : List Task) (lock : s.holder = none) (queue : s.queue = k :: rest) :
    Turns clock s .grant ({ s with queue := rest }.acquire clock k)
  | stopped (k : Task) (pid : Nat) (lock : s.holder = some (k, .stopping pid))
    (finished : s.hasFinished pid = true) : Turns clock s .stopped (s.proceed clock k)
  | expired (k : Task) (pid : Nat) (lock : s.holder = some (k, .stopping pid)) :
    Turns clock s .expired ((s.proceed clock k).after (s.timeoutNotes pid))
  | answer (k : Task) (reply : LaunchCommand.Reply) (lock : s.holder = some (k, .asking)) :
    Turns clock s (.answer k.number reply) (s.answered clock k reply)
  | inquiry (n : Nat) (reply : LaunchCommand.Reply) (asked : n ∈ s.inquiries)
    (other : ∀ k, s.holder = some (k, .asking) → k.number ≠ n) :
    Turns clock s (.answer n reply) (s.answerInquiry n reply)
  | spawned (k : Task) (x : Session) (y : Sentinel) (pid : Nat)
    (lock : s.holder = some (k, .spawning x y)) (new : s.sessionOf pid = none) :
    Turns clock s (.spawned pid) (s.spawned k x y pid, [])
  | refused (k : Task) (x : Session) (y : Sentinel) (e : OsError)
    (lock : s.holder = some (k, .spawning x y)) : Turns clock s (.refused e) (s.refused k x e)
  | resume (k : Task) (pid : Nat) (y : Sentinel) (lock : s.holder = some (k, .resuming pid y)) :
    Turns clock s .resume (s.resumed k pid y)
  | write (pid : Nat) (c : Channel) (chunk : List UInt8) :
    Turns clock s (.write pid c chunk) (s.onProcess pid fun p => p.write c chunk)
  | close (pid : Nat) (c : Channel) :
    Turns clock s (.close pid c) (s.onProcess pid fun p => p.closeChannel c)
  | exit (pid : Nat) (code : Int) :
    Turns clock s (.exit pid code) (s.onProcess pid fun p => p.exit code)
  | pump (pid : Nat) (c : Channel) : Turns clock s (.pump pid c) (s.pump pid c)
  | finish (pid : Nat) (x : Session) (there : s.sessionOf pid = some x)
    (unfinished : x.finished = none) (ending : x.ending?.isSome = true) :
    Turns clock s (.finish pid) (s.onSession pid Session.finish)
  | report (pid : Nat) (t : Turn) (reported : s.report pid = some t) : Turns clock s (.report pid) t

theorem sessionOf_eq_none {s : Server} {pid : Nat} :
    s.sessionOf pid = none ↔ s.sessions.contains pid = false := by
  rw [sessionOf, Option.map_eq_none_iff, OrderedMap.contains]
  cases s.sessions.get? pid <;> simp

/-- **Every move that is made is possible.** -/
theorem step_turns {s : Server} {m : Move} {t : Turn} (h : s.step clock m = some t) :
    Turns clock s m t := by
  cases m with
  | request job => obtain rfl := Option.some.inj h; exact .request job
  | inquire => obtain rfl := Option.some.inj h; exact .inquire
  | save uri => obtain rfl := Option.some.inj h; exact .save uri
  | send command => obtain rfl := Option.some.inj h; exact .send command
  | relocate root => obtain rfl := Option.some.inj h; exact .relocate root
  | grant =>
    simp only [step] at h
    split at h
    · next k rest hh hq => obtain rfl := Option.some.inj h; exact .grant k rest hh hq
    · cases h
  | stopped =>
    simp only [step] at h
    split at h
    · next k pid hh =>
      split at h
      · next hf => obtain rfl := Option.some.inj h; exact .stopped k pid hh hf
      · cases h
    · cases h
  | expired =>
    simp only [step] at h
    split at h
    · next k pid hh => obtain rfl := Option.some.inj h; exact .expired k pid hh
    · cases h
  | answer n reply =>
    simp only [step] at h
    split at h
    · next k hh =>
      split_ifs at h with hn hi
      · obtain rfl := Option.some.inj h
        subst hn
        exact .answer k reply hh
      · obtain rfl := Option.some.inj h
        refine .inquiry n reply hi fun k' hk' => ?_
        rw [hh] at hk'
        cases hk'
        exact hn
    · next hh =>
      split_ifs at h with hi
      obtain rfl := Option.some.inj h
      exact .inquiry n reply hi fun k hk => absurd hk (hh k)
  | spawned pid =>
    simp only [step] at h
    split at h
    · next k x y hh =>
      split at h
      · cases h
      · next hc =>
        obtain rfl := Option.some.inj h
        exact .spawned k x y pid hh (sessionOf_eq_none.mpr (by simpa using hc))
    · cases h
  | refused e =>
    simp only [step] at h
    split at h
    · next k x y hh => obtain rfl := Option.some.inj h; exact .refused k x y e hh
    · cases h
  | resume =>
    simp only [step] at h
    split at h
    · next k pid y hh => obtain rfl := Option.some.inj h; exact .resume k pid y hh
    · cases h
  | write pid c chunk => obtain rfl := Option.some.inj h; exact .write pid c chunk
  | close pid c => obtain rfl := Option.some.inj h; exact .close pid c
  | exit pid code => obtain rfl := Option.some.inj h; exact .exit pid code
  | pump pid c => obtain rfl := Option.some.inj h; exact .pump pid c
  | finish pid =>
    simp only [step, finish?] at h
    split at h
    · cases h
    · next v hv =>
      split at h
      · next hf =>
        obtain rfl := Option.some.inj h
        simp only [Bool.and_eq_true, Option.isNone_iff_eq_none] at hf
        exact .finish pid v.session (by rw [sessionOf, hv]; rfl) hf.1 hf.2
      · cases h
  | report pid => exact .report pid t h

/-! ### Small steps -/

theorem mem_keys_iff {s : Server} {pid : Nat} :
    pid ∈ s.sessions.keys ↔ ∃ x, s.sessionOf pid = some x := by
  rw [OrderedMap.mem_keys, sessionOf]
  simp only [Option.map_eq_some_iff, exists_comm, exists_and_left, exists_eq', and_true]

theorem hasFinished_iff {s : Server} {pid : Nat} : s.hasFinished pid = true ↔
    ∃ x code, s.sessionOf pid = some x ∧ x.finished = some code := by
  unfold hasFinished sessionOf
  cases s.sessions.get? pid <;> simp [Option.isSome_iff_exists]

theorem sessionOf_insert {s s' : Server} {q : Nat} {v : Supervised} {f : Session → Session}
    (hv : s.sessions.get? q = some v)
    (hs : s'.sessions = s.sessions.insert q { v with session := f v.session }) (pid : Nat) :
    s'.sessionOf pid = (s.sessionOf pid).map fun x => if q = pid then f x else x := by
  unfold sessionOf
  rw [hs, OrderedMap.get?_insert]
  by_cases hq : q = pid
  · subst hq
    simp [hv]
  · rw [if_neg (Ne.symm hq)]
    simp only [if_neg hq, Option.map_id']

theorem sessionOf_of_absent {s : Server} {q : Nat} (hv : s.sessions.get? q = none)
    (f : Session → Session) (pid : Nat) :
    s.sessionOf pid = (s.sessionOf pid).map fun x => if q = pid then f x else x := by
  unfold sessionOf
  by_cases hq : q = pid
  · subst hq
    simp [hv]
  · simp only [if_neg hq, Option.map_id']

theorem sessionOf_onSession (s : Server) (q pid : Nat) (f : Session → Session × List Effect) :
    (s.onSession q f).1.sessionOf pid =
      (s.sessionOf pid).map fun x => if q = pid then (f x).1 else x := by
  unfold onSession
  split
  · next hv => exact sessionOf_of_absent hv _ pid
  · next v hv => exact sessionOf_insert (f := fun x => (f x).1) hv rfl pid

theorem sessionOf_pump (s : Server) (q pid : Nat) (c : Channel) :
    (s.pump q c).1.sessionOf pid =
      (s.sessionOf pid).map fun x => if q = pid then x.pumped c else x := by
  unfold pump
  split
  · next hv => exact sessionOf_of_absent hv _ pid
  · next v hv =>
    simp only [Session.pump_eq]
    exact sessionOf_insert (f := (·.pumped c)) hv rfl pid

/-- What pumping a channel takes from the session of a process. -/
def taken (s : Server) (pid : Nat) (c : Channel) : List Piece :=
  match s.sessionOf pid with
  | some x => x.takes c
  | none => []

/-- **Pumping** hands on to the aggregator what it takes. -/
theorem pump_delivers (s : Server) (pid : Nat) (c : Channel) :
    (s.pump pid c).1.aggregator =
        (LineReader.deliverFrom c (listener c) s.aggregator [] (s.taken pid c)).1 ∧
      (s.pump pid c).2 =
        (LineReader.deliverFrom c (listener c) s.aggregator [] (s.taken pid c)).2 := by
  unfold pump taken sessionOf
  cases s.sessions.get? pid with
  | none => exact ⟨rfl, rfl⟩
  | some v => simp only [Session.pump_eq, Option.map_some, and_self]

theorem pump_frame (s : Server) (pid : Nat) (c : Channel) : (s.pump pid c).1 =
    { s with
      aggregator := (s.pump pid c).1.aggregator
      sessions := (s.pump pid c).1.sessions } := by
  unfold pump
  split <;> rfl

theorem deliver_frame (c : Channel) (a : Aggregator) (p : Piece) :
    let a' := (LineReader.deliver c (listener c) a p).1
    a' = { a with index := a'.index, activity := a'.activity } := by
  cases p with
  | tooLong bytes => rfl
  | line bytes =>
    unfold LineReader.deliver
    cases c with
    | stderr => rfl
    | stdout =>
      dsimp only [listener]
      split
      · next h => exact Aggregator.onStdout_frame h
      · rfl

/-- **Pumping changes nothing of the aggregator** but its index and its activity. -/
theorem aggregator_pump (s : Server) (pid : Nat) (c : Channel) :
    let a := (s.pump pid c).1.aggregator
    a = { s.aggregator with index := a.index, activity := a.activity } := by
  intro a
  have ha : a = (LineReader.deliverFrom c (listener c) s.aggregator [] (s.taken pid c)).1 :=
    (pump_delivers s pid c).1
  rw [ha]
  refine LineReader.deliverFrom_state c (listener c)
    (P := fun a => a = { s.aggregator with index := a.index, activity := a.activity })
    (fun a p hp => ?_) _ _ _ rfl
  rw [deliver_frame c a p, hp]

theorem sessionOf_markReported {s : Server} {q : Nat} {v : Supervised}
    (h : s.sessions.get? q = some v) (pid : Nat) :
    (s.markReported q v).sessionOf pid = s.sessionOf pid := by
  unfold markReported sessionOf
  rw [OrderedMap.get?_insert]
  split
  · next hp => rw [hp, h]; rfl
  · rfl

theorem onSession_frame (s : Server) (pid : Nat) (f : Session → Session × List Effect) :
    (s.onSession pid f).1 = { s with sessions := (s.onSession pid f).1.sessions } := by
  unfold onSession
  split <;> rfl

theorem send_frame {s : Server} {command : String} {t : Turn} (h : s.send command = .ok t) :
    t.1 = { s with aggregator := (s.aggregator.commandSent command).1 } := by
  unfold send at h
  split at h
  · cases h
  · split at h
    · cases h
    · cases h; rfl

theorem reload_frame (s : Server) : s.reload.1 = s ∨
    s.reload.1 = { s with aggregator := (s.aggregator.commandSent reloadCommand).1 } := by
  unfold reload
  split
  · next t h => exact .inr (send_frame h)
  · exact .inl rfl

/-- What is done aside: neither the sessions nor the lock have to do with it. -/
structure Aside (s s' : Server) : Prop where
  sessions : s'.sessions = s.sessions
  current : s'.current = s.current
  holder : s'.holder = s.holder
  sentinel : s'.aggregator.sentinel = s.aggregator.sentinel

theorem aside_saved (s : Server) (uri : String) : Aside s (s.saved uri).1 := by
  rcases reload_frame s.number.1 with h | h
  all_goals
    unfold saved
    dsimp only
    rw [h]
    exact ⟨rfl, rfl, rfl, rfl⟩

theorem aside_sendTask (s : Server) (command : String) : Aside s (s.sendTask command).1 := by
  unfold sendTask
  dsimp only
  split
  · next s' effects h =>
    obtain rfl := send_frame h
    exact ⟨rfl, rfl, rfl, rfl⟩
  · exact ⟨rfl, rfl, rfl, rfl⟩

theorem aside_answerInquiry (s : Server) (n : Nat) (reply : LaunchCommand.Reply) :
    Aside s (s.answerInquiry n reply).1 := by
  unfold answerInquiry
  dsimp only
  split <;> exact ⟨rfl, rfl, rfl, rfl⟩

/-! ### The stages of a task -/

/-- **The task that holds the lock**, if there is one, **minds no process**: it waits for the editor's
answer, and the aggregator listens as before, or for the start of a new process, and the aggregator
listens for its sentinel. -/
inductive Free (before : Option Sentinel) (s : Server) : Prop
  | released (holder : s.holder = none) (sentinel : s.aggregator.sentinel = before)
  | asking (t : Task) (holder : s.holder = some (t, .asking))
    (sentinel : s.aggregator.sentinel = before)
  | spawning (t : Task) (command : String) (directory : Option String) (y : Sentinel)
    (holder : s.holder = some (t, .spawning (.create command directory) y))
    (sentinel : s.aggregator.sentinel = some y)

/-- What a task does once it minds no process any more: the sessions stay as they are. -/
structure Proceeds (s s' : Server) : Prop where
  sessions : s'.sessions = s.sessions
  current : s'.current = s.current
  free : Free s.aggregator.sentinel s'

theorem proceeds_conclude (s : Server) (t : Task) (outcome : Outcome) :
    Proceeds s (s.conclude t outcome) :=
  ⟨rfl, rfl, .released rfl rfl⟩

theorem proceeds_prepare (clock : Nat → Int) (s : Server) (t : Task) (command : String) :
    Proceeds s (s.prepare clock t command).1 :=
  ⟨rfl, rfl, .spawning t command s.workspace _ rfl rfl⟩

theorem proceeds_launch (clock : Nat → Int) (s : Server) (t : Task) (command : Option String) :
    Proceeds s (s.launch clock t command).1 := by
  unfold launch
  split
  · exact proceeds_conclude s t .done
  · cases command with
    | none => exact ⟨rfl, rfl, .asking t rfl rfl⟩
    | some c => exact proceeds_prepare clock s t c

theorem proceeds_proceed (clock : Nat → Int) (s : Server) (t : Task) :
    Proceeds s (s.proceed clock t).1 := by
  by_cases hj : t.job = .restart
  · have hp := proceeds_launch clock { s with aggregator := s.aggregator.retractAll.1 } t none
    have hl : t.job.launch? = some none := by rw [hj]; rfl
    simp only [proceed, if_pos hj, hl]
    exact ⟨hp.sessions, hp.current, hp.free⟩
  · simp only [proceed, if_neg hj]
    cases t.job.launch? with
    | none => exact proceeds_conclude s t .done
    | some command => exact proceeds_launch clock s t command

theorem proceeds_answered (clock : Nat → Int) (s : Server) (t : Task) (reply : LaunchCommand.Reply) :
    Proceeds s (s.answered clock t reply).1 := by
  unfold answered
  split
  · exact proceeds_conclude s t _
  · exact proceeds_prepare clock s t _

/-! ### The session of each process -/

/-- **What a move does to the session of a process** that has one. -/
def deed (s : Server) (m : Move) (pid : Nat) (x : Session) : Session :=
  match m with
  | .write q c chunk => if q = pid then x.mapProcess (·.write c chunk) else x
  | .close q c => if q = pid then x.mapProcess (·.closeChannel c) else x
  | .exit q code => if q = pid then x.mapProcess (·.exit code) else x
  | .pump q c => if q = pid then x.pumped c else x
  | .finish q => if q = pid then x.finish.1 else x
  | .grant => if s.current = some pid then (x.requestStop true).1 else x
  | .resume =>
    match s.holder with
    | some (_, .resuming q _) => if q = pid then x.attach.1 else x
    | _ => x
  | _ => x

theorem deed_induct {P : Session → Prop} (s : Server) (m : Move) (pid : Nat) {x : Session}
    (stay : P x) (write : ∀ c chunk, P (x.mapProcess (·.write c chunk)))
    (close : ∀ c, P (x.mapProcess (·.closeChannel c))) (exit : ∀ code, P (x.mapProcess (·.exit code)))
    (pump : ∀ c, m = .pump pid c → P (x.pumped c)) (finish : P x.finish.1)
    (stop : P (x.requestStop true).1) (attach : P x.attach.1) : P (s.deed m pid x) := by
  unfold deed
  split
  · split
    · exact write _ _
    · exact stay
  · split
    · exact close _
    · exact stay
  · split
    · exact exit _
    · exact stay
  · split
    · next hq => exact pump _ (by rw [hq])
    · exact stay
  · split
    · exact finish
    · exact stay
  · split
    · exact stop
    · exact stay
  · split
    · split
      · exact attach
      · exact stay
    · exact stay
  · exact stay

theorem sessionOf_of_eq {s s' : Server} (h : s'.sessions = s.sessions) (pid : Nat) :
    s'.sessionOf pid = (s.sessionOf pid).map fun x => x := by
  rw [sessionOf, h, Option.map_id']
  rfl

theorem sessions_resumed (s : Server) (t : Task) (pid : Nat) (y : Sentinel) :
    (s.resumed t pid y).1.sessions = (s.onSession pid Session.attach).1.sessions := by
  unfold resumed
  dsimp only
  split
  · rfl
  · next s'' more h => have := send_frame h; simp only at this; rw [this]; rfl

theorem report_cases {s : Server} {pid : Nat} {t : Turn} (h : s.report pid = some t) :
    ∃ v code, s.sessions.get? pid = some v ∧ v.session.finished = some code ∧
      (t.1 = s.markReported pid v ∨ t.1 = (s.markReported pid v).release pid) := by
  unfold report at h
  split at h
  · cases h
  · next v hv =>
    split at h
    · cases h
    · rcases v.session.wait_cases with hw | hw | ⟨code, hf, hw | hw⟩
      · simp only [hw] at h; cases h
      · simp only [hw] at h; cases h
      · simp only [hw] at h
        split at h
        · cases h; exact ⟨v, code, hv, hf, .inl rfl⟩
        · cases h; exact ⟨v, code, hv, hf, .inr rfl⟩
      · simp only [hw] at h
        cases h; exact ⟨v, code, hv, hf, .inr rfl⟩

theorem sessionOf_report {s : Server} {q : Nat} {t : Turn} (h : s.report q = some t) (pid : Nat) :
    t.1.sessionOf pid = s.sessionOf pid := by
  rcases report_cases h with ⟨v, -, hv, -, ht | ht⟩
  · rw [ht, sessionOf_markReported hv]
  · rw [ht, ← sessionOf_markReported hv]
    unfold release
    split <;> rfl

theorem acquire_of_none {s : Server} (hc : s.current = none) (t : Task) :
    (s.acquire clock t).1 = (s.proceed clock t).1 := by
  unfold acquire
  rw [hc]
  rfl

theorem acquire_of_some {s : Server} {q : Nat} (hc : s.current = some q) (t : Task) :
    (s.acquire clock t).1 = ({ s with current := none, holder := some (t, .stopping q) }.onSession q
      fun x => x.requestStop true).1 := by
  unfold acquire
  rw [hc]
  rfl

theorem sessionOf_acquire (s : Server) (t : Task) (pid : Nat) :
    (s.acquire clock t).1.sessionOf pid =
      (s.sessionOf pid).map fun x => if s.current = some pid then (x.requestStop true).1 else x := by
  cases hc : s.current with
  | none =>
    rw [acquire_of_none hc]
    exact sessionOf_of_eq (proceeds_proceed clock s t).sessions pid
  | some q =>
    rw [acquire_of_some hc]
    simp only [Option.some.injEq]
    exact sessionOf_onSession { s with current := none, holder := some (t, .stopping q) } q pid _

/-- **The session of each process**: only the start of a process makes a new one, and every other
move does to a session what its deed is. -/
theorem step_session {s : Server} {m : Move} {t : Turn} (h : s.step clock m = some t)
    (hm : ∀ pid, m ≠ .spawned pid) (pid : Nat) :
    t.1.sessionOf pid = (s.sessionOf pid).map (s.deed m pid) := by
  cases step_turns h with
  | request job => exact sessionOf_of_eq rfl pid
  | inquire => exact sessionOf_of_eq rfl pid
  | save uri => exact sessionOf_of_eq (aside_saved s uri).sessions pid
  | send command => exact sessionOf_of_eq (aside_sendTask s command).sessions pid
  | relocate root => exact sessionOf_of_eq rfl pid
  | grant k rest => exact sessionOf_acquire { s with queue := rest } k pid
  | stopped k => exact sessionOf_of_eq (proceeds_proceed clock s k).sessions pid
  | expired k => exact sessionOf_of_eq (proceeds_proceed clock s k).sessions pid
  | answer k reply => exact sessionOf_of_eq (proceeds_answered clock s k reply).sessions pid
  | inquiry n reply => exact sessionOf_of_eq (aside_answerInquiry s n reply).sessions pid
  | spawned k x y q => exact absurd rfl (hm q)
  | refused => exact sessionOf_of_eq rfl pid
  | resume k q y lock =>
    have hd : s.deed .resume pid = fun x => if q = pid then x.attach.1 else x := by
      funext x
      simp only [deed, lock]
    rw [sessionOf, sessions_resumed, hd]
    exact sessionOf_onSession s q pid _
  | write q c chunk => exact sessionOf_onSession s q pid _
  | close q c => exact sessionOf_onSession s q pid _
  | exit q code => exact sessionOf_onSession s q pid _
  | pump q c => exact sessionOf_pump s q pid c
  | finish q => exact sessionOf_onSession s q pid _
  | report q t reported => exact (sessionOf_report reported pid).trans (sessionOf_of_eq rfl pid)

/-- **The start of a process** is the only move that makes a session, and it is made for a task that
waits for it. -/
theorem step_spawned {s : Server} {pid : Nat} {t : Turn} (h : s.step clock (.spawned pid) = some t) :
    ∃ k x y, s.holder = some (k, .spawning x y) ∧ s.sessionOf pid = none ∧ t.2 = [] ∧
      t.1.sessionOf pid = some (x.launch pid) ∧ (∀ q ≠ pid, t.1.sessionOf q = s.sessionOf q) := by
  cases step_turns h with
  | spawned k x y _ lock new =>
    refine ⟨k, x, y, lock, new, rfl, ?_, fun q hq => ?_⟩
    · exact congrArg _ (OrderedMap.get?_insert_self _ _ _)
    · exact congrArg _ (OrderedMap.get?_insert_of_ne _ hq _)

/-- A session that is there stays, and the move does its deed to it. -/
theorem step_deed {s : Server} {m : Move} {t : Turn} {pid : Nat} {x : Session}
    (h : s.step clock m = some t) (hx : s.sessionOf pid = some x) :
    t.1.sessionOf pid = some (s.deed m pid x) := by
  by_cases hm : ∃ q, m = .spawned q
  · obtain ⟨q, rfl⟩ := hm
    obtain ⟨-, -, -, -, hn, -, -, hs⟩ := step_spawned h
    have hq : pid ≠ q := by rintro rfl; rw [hn] at hx; cases hx
    exact (hs pid hq).trans hx
  · rw [step_session h (not_exists.mp hm) pid, hx]
    rfl

/-- A session that is there after a move was there before it, or is the new one. -/
theorem step_cases {s : Server} {m : Move} {t : Turn} {pid : Nat} {x' : Session}
    (h : s.step clock m = some t) (hx : t.1.sessionOf pid = some x') :
    (∃ x, s.sessionOf pid = some x ∧ x' = s.deed m pid x) ∨
      (m = .spawned pid ∧ s.sessionOf pid = none ∧
        ∃ k x y, s.holder = some (k, .spawning x y) ∧ x' = x.launch pid) := by
  by_cases hm : ∃ q, m = .spawned q
  · obtain ⟨q, rfl⟩ := hm
    obtain ⟨k, x, y, hh, hn, -, hq, hs⟩ := step_spawned h
    by_cases hpq : pid = q
    · subst hpq
      rw [hq] at hx
      exact .inr ⟨rfl, hn, k, x, y, hh, (Option.some.inj hx).symm⟩
    · exact .inl ⟨x', (hs pid hpq).symm.trans hx, rfl⟩
  · have hs := step_session h (not_exists.mp hm) pid
    rw [hx] at hs
    obtain ⟨x, hx', he⟩ := Option.map_eq_some_iff.mp hs.symm
    exact .inl ⟨x, hx', he.symm⟩

/-! ### Runs -/

theorem run_cons {s : Server} {m : Move} {moves : List Move} {t : Turn} :
    s.run clock (m :: moves) = some t ↔
      ∃ t₁ t₂, s.step clock m = some t₁ ∧ t₁.1.run clock moves = some t₂ ∧ t = t₂.after t₁.2 := by
  rw [run]
  constructor
  · intro h
    split at h
    · cases h
    · next s' e hs =>
      split at h
      · cases h
      · next s'' e' hr => cases h; exact ⟨_, _, hs, hr, rfl⟩
  · rintro ⟨⟨s', e⟩, ⟨s'', e'⟩, hs, hr, rfl⟩
    dsimp only at hr
    simp only [hs, hr, Turn.after]

theorem run_append {xs ys : List Move} {s : Server} {t : Turn} :
    s.run clock (xs ++ ys) = some t ↔
      ∃ t₁ t₂, s.run clock xs = some t₁ ∧ t₁.1.run clock ys = some t₂ ∧ t = t₂.after t₁.2 := by
  induction xs generalizing s t with
  | nil =>
    constructor
    · intro h
      exact ⟨(s, []), t, rfl, h, rfl⟩
    · rintro ⟨t₁, t₂, h₁, h₂, rfl⟩
      cases h₁
      exact h₂
  | cons m xs ih =>
    rw [List.cons_append, run_cons]
    constructor
    · rintro ⟨t₁, t₂, hs, hr, rfl⟩
      obtain ⟨u₁, u₂, h₁, h₂, rfl⟩ := ih.mp hr
      refine ⟨u₁.after t₁.2, u₂, run_cons.mpr ⟨t₁, u₁, hs, h₁, rfl⟩, h₂, ?_⟩
      simp [Turn.after]
    · rintro ⟨t₁, t₂, h₁, h₂, rfl⟩
      obtain ⟨u₁, u₂, hs, hr, rfl⟩ := run_cons.mp h₁
      refine ⟨u₁, t₂.after u₂.2, hs, ih.mpr ⟨u₂, t₂, hr, h₂, rfl⟩, ?_⟩
      simp [Turn.after]

/-- **What every move keeps a run keeps.** -/
theorem run_induction {P : Server → Prop} : ∀ (moves : List Move) {s : Server} {t : Turn},
    (∀ s t m, m ∈ moves → P s → s.step clock m = some t → P t.1) → P s →
      s.run clock moves = some t → P t.1
  | [], _, _, _, hp, h => by cases h; exact hp
  | m :: moves, s, t, step, hp, h => by
    obtain ⟨t₁, t₂, hs, hr, rfl⟩ := run_cons.mp h
    have h₁ : P t₁.1 := step s t₁ m (by simp) hp hs
    have h₂ : P t₂.1 := run_induction moves (fun s t m' hm => step s t m' (by simp [hm])) h₁ hr
    exact h₂

end GhciRelay.Server
