import GhciRelay.Proofs.Attunement
import GhciRelay.Proofs.EditorView
import GhciRelay.Proofs.RestartIsolation
import GhciRelay.Proofs.Tasks

/-!
# What a move tells

Some effects are told twice, so that they can be compared: what is published shows the index, and a
command that is written to a process is also logged. An effect is *hushed* if it neither writes nor
logs a command, and *plain* if it does not publish either. `step_tells` lists when the effects of a
move are not all plain: a command is sent, a restart takes back all diagnostics, or output is pumped.

From it follows, for the server as for the aggregator alone, that the editor shows what the index
holds (`shows_history`).
-/

namespace GhciRelay

/-! ### Plain effects -/

namespace Editor

/-- How a command begins in the log. -/
def commandMark : String := "[stdin] "

/-- The command that a call logs. -/
def Call.command? : Call → Option String
  | .log text =>
    if commandMark.toList.isPrefixOf text.toList then
      some (String.ofList (text.toList.drop commandMark.length))
    else none
  | _ => none

theorem command?_log (command : String) :
    (Call.log (commandMark ++ command)).command? = some command := by
  have hp : commandMark.toList.isPrefixOf (commandMark ++ command).toList = true := by
    rw [String.toList_append, List.isPrefixOf_iff_prefix]
    exact List.prefix_append _ _
  rw [Call.command?, if_pos hp, String.toList_append, ← String.length_toList, List.drop_left,
    String.ofList_toList]

end Editor

namespace Effect

/-- The effect neither writes nor logs a command. -/
def isHushed : Effect → Bool
  | .tell c => c.command?.isNone
  | .write _ _ => false
  | _ => true

/-- The effect publishes nothing either. -/
def isPlain (e : Effect) : Bool := e.isHushed && (e.call?.bind Editor.Call.publication?).isNone

@[simp] theorem isPlain_note (entry : Log.Entry) : (Effect.note entry).isPlain = true := rfl

@[simp] theorem isPlain_ask (name : String) : (Effect.ask name).isPlain = true := rfl

@[simp] theorem isPlain_spawn (command : String) (directory : Option String) (ownGroup : Bool) :
    (Effect.spawn command directory ownGroup).isPlain = true := rfl

@[simp] theorem isPlain_killGroup (pid : Nat) : (Effect.killGroup pid).isPlain = true := rfl

@[simp] theorem isPlain_showError (text : String) :
    (Effect.tell (.showError text)).isPlain = true := rfl

@[simp] theorem isPlain_status (text : String) : (Effect.tell (.status text)).isPlain = true := rfl

theorem isHushed_of_isPlain {e : Effect} (h : e.isPlain = true) : e.isHushed = true :=
  (Bool.and_eq_true_iff.mp h).1

theorem publications_of_plain {effects : List Effect} (h : ∀ e ∈ effects, e.isPlain = true) :
    Aggregator.publications effects = [] := by
  refine List.filterMap_eq_nil_iff.mpr fun c hc => ?_
  obtain ⟨e, he, hec⟩ := List.mem_filterMap.mp hc
  have hp := (Bool.and_eq_true_iff.mp (h e he)).2
  rwa [hec, Option.bind_some, Option.isNone_iff_eq_none] at hp

end Effect

theorem Effect.OfOutput.isHushed {e : Effect} (h : e.OfOutput) : e.isHushed = true := by
  cases h with
  | output line =>
    simp [Effect.isHushed, Editor.Call.command?, Editor.commandMark, List.isPrefixOf]
  | error line =>
    simp [Effect.isHushed, Editor.Call.command?, Editor.commandMark, List.isPrefixOf]
  | published u ds => rfl
  | idle => rfl
  | noted entry => rfl

namespace Server

variable {clock : Nat → Int}

theorem isPlain_say {text : String} (h : text.toList.head? ≠ some '[') :
    (say text).isPlain = true := by
  have hp : Editor.commandMark.toList.isPrefixOf text.toList = false := by
    rw [← Bool.not_eq_true, List.isPrefixOf_iff_prefix]
    rintro ⟨rest, hr⟩
    exact h (by rw [← hr]; rfl)
  simp [say, Effect.isPlain, Effect.isHushed, Editor.Call.command?, hp, Effect.call?,
    Editor.Call.publication?]

/-! ### Plain turns -/

/-- **A plain turn**: the index stays, and all effects are plain. -/
structure Plain (s : Server) (t : Turn) : Prop where
  index : t.1.aggregator.index = s.aggregator.index
  plain : ∀ e ∈ t.2, e.isPlain = true

theorem Plain.after {s : Server} {t : Turn} (h : Plain s t) {effects : List Effect}
    (he : ∀ e ∈ effects, e.isPlain = true) : Plain s (t.after effects) := by
  refine ⟨h.index, fun e hm => ?_⟩
  rcases List.mem_append.mp hm with hm | hm
  · exact he e hm
  · exact h.plain e hm

theorem Plain.nil {s s' : Server} (h : s'.aggregator.index = s.aggregator.index) : Plain s (s', []) :=
  ⟨h, by simp⟩

theorem plain_onSession (s : Server) (pid : Nat) {f : Session → Session × List Effect}
    (hf : ∀ x, ∀ e ∈ (f x).2, e.isPlain = true) : Plain s (s.onSession pid f) := by
  refine ⟨by rw [onSession_frame], ?_⟩
  unfold onSession
  split
  · simp
  · exact hf _

theorem plain_prepare (clock : Nat → Int) (s : Server) (k : Task) (command : String) :
    Plain s (s.prepare clock k command) := by
  refine ⟨rfl, fun e he => ?_⟩
  rcases List.mem_cons.mp he with rfl | he
  · exact isPlain_say (by simp)
  · rw [List.mem_singleton.mp he, Effect.isPlain_spawn]

theorem plain_launch (clock : Nat → Int) (s : Server) (k : Task) (command : Option String) :
    Plain s (s.launch clock k command) := by
  unfold launch
  split
  · exact .nil rfl
  · refine Plain.after ?_ (by decide)
    cases command with
    | none => exact ⟨rfl, by simp⟩
    | some c => exact plain_prepare clock s k c

theorem plain_proceed (clock : Nat → Int) (s : Server) {k : Task} (hj : k.job ≠ .restart) :
    Plain s (s.proceed clock k) := by
  simp only [proceed, if_neg hj]
  refine Plain.after ?_ (by simp)
  cases k.job.launch? with
  | none => exact .nil rfl
  | some command => exact plain_launch clock s k command

theorem plain_commandOf {s : Server} {reply : LaunchCommand.Reply} {command : String}
    {effects : List Effect} (h : s.commandOf reply = .ok (command, effects)) :
    ∀ e ∈ effects, e.isPlain = true := by
  intro e he
  obtain ⟨entry, rfl⟩ := commandOf_notes h e he
  rfl

theorem plain_answered (clock : Nat → Int) (s : Server) (k : Task) (reply : LaunchCommand.Reply) :
    Plain s (s.answered clock k reply) := by
  unfold answered
  split
  · exact .nil rfl
  · next command effects h => exact (plain_prepare clock s k command).after (plain_commandOf h)

theorem plain_answerInquiry (s : Server) (n : Nat) (reply : LaunchCommand.Reply) :
    Plain s (s.answerInquiry n reply) := by
  unfold answerInquiry
  split
  · exact .nil rfl
  · next command effects h => exact ⟨rfl, plain_commandOf h⟩

theorem plain_requestStop (x : Session) : ∀ e ∈ (x.requestStop true).2, e.isPlain = true := by
  rcases requestStop_effects x with he | ⟨q, -, he⟩
  · simp [he]
  · simp [he]

theorem plain_finish (x : Session) : ∀ e ∈ x.finish.2, e.isPlain = true := by
  unfold Session.finish
  split <;> simp

theorem plain_attach (x : Session) : ∀ e ∈ x.attach.2, e.isPlain = true := by
  unfold Session.attach
  split <;> simp

theorem plain_stopping (k : Task) : ∀ e ∈ (if k.job = .restart then
    [say "Stopping GHCi ...", status "Stopping GHCi"] else []), e.isPlain = true := by
  split
  · decide
  · simp

theorem plain_timeoutNotes (s : Server) (pid : Nat) : ∀ e ∈ s.timeoutNotes pid, e.isPlain = true := by
  unfold timeoutNotes
  split <;> simp

theorem plain_crashReport (e : Exit) : ∀ e' ∈ crashReport e, e'.isPlain = true := by
  intro e' he
  have hsay : (say e.message).isPlain = true := by
    -- whatever the code and the signal are called, the line begins with the same words
    unfold Exit.message
    generalize e.codeText = code, e.signalText = signal
    exact isPlain_say (by simp)
  simp only [crashReport, List.mem_cons, List.not_mem_nil, or_false] at he
  rcases he with rfl | rfl | rfl | rfl
  · exact Effect.isPlain_note _
  · exact hsay
  · exact Effect.isPlain_showError _
  · exact Effect.isPlain_status _

theorem plain_report {s : Server} {pid : Nat} {t : Turn} (h : s.report pid = some t) : Plain s t := by
  obtain ⟨v, code, -, -, -, -, he⟩ := report_ends h
  have hindex : ((s.markReported pid v).release pid).aggregator.index = s.aggregator.index := by
    unfold release
    split <;> rfl
  cases he with
  | crashed => exact ⟨hindex, plain_crashReport _⟩
  | dismissed =>
    have hplain : ∀ e ∈ [say "GHCi stopped."], e.isPlain = true := by decide
    exact ⟨rfl, hplain⟩
  | left =>
    have hplain : ∀ e ∈ [say "GHCi exited successfully.", stoppedStatus], e.isPlain = true := by
      decide
    exact ⟨hindex, hplain⟩

/-! ### Sending -/

/-- **What sending a command does**: it is written to a process, logged, and shown. -/
def sending (pid : Nat) (command : String) : List Effect :=
  [.write pid (command ++ "\n"), .tell (.log (Editor.commandMark ++ command)),
    .tell (.status ("Running " ++ command))]

/-- A server whose interpreter has been given something to do. -/
def busied (s : Server) : Server := { s with aggregator := { s.aggregator with activity := .busy } }

theorem send_sending {s : Server} {command : String} {t : Turn} (h : s.send command = .ok t) :
    ∃ pid x q, s.current = some pid ∧ s.sessionOf pid = some x ∧ x.isRunning = true ∧
      x.pid? = some q ∧ t = (s.busied, sending q command) := by
  unfold send at h
  split at h
  · cases h
  · next v hv =>
    obtain ⟨pid, hc, hp⟩ := Option.bind_eq_some_iff.mp hv
    split at h
    · cases h
    · next effects he =>
      obtain ⟨q, hr, hq, rfl⟩ := Session.send_ok he
      cases h
      exact ⟨pid, v.session, q, hc, congrArg _ hp, hr, hq, rfl⟩

/-! ### The ways of telling -/

/-- **What a move tells.** -/
inductive Tells (s : Server) : Move → Turn → Prop
  | plain {m : Move} {t : Turn} (stays : s.retracts m = false) (plain : Plain s t) : Tells s m t
  | sent {m : Move} {t : Turn} (stays : s.retracts m = false) (front : List Effect) (pid : Nat)
    (command : String) (index : t.1.aggregator.index = s.aggregator.index)
    (plain : ∀ e ∈ front, e.isPlain = true) (effects : t.2 = front ++ sending pid command) :
    Tells s m t
  | retracted {m : Move} {t : Turn} (goes : s.retracts m = true)
    (publishes : Aggregator.Publishes s.aggregator.index.clearAll (t.1.aggregator, t.2))
    (hushed : ∀ e ∈ t.2, e.isHushed = true) : Tells s m t
  | pumped (pid : Nat) (c : Channel) : Tells s (.pump pid c) (s.pump pid c)

theorem publishes_after {i : Index} {a : Aggregator} {effects front : List Effect}
    (h : Aggregator.Publishes i (a, effects)) (hf : ∀ e ∈ front, e.isPlain = true) :
    Aggregator.Publishes i (a, front ++ effects) := by
  refine ⟨h.index, ?_⟩
  rw [Aggregator.publications_append, Effect.publications_of_plain hf]
  exact h.publications

theorem proceed_restart (clock : Nat → Int) (s : Server) {k : Task} (hj : k.job = .restart) :
    s.proceed clock k = ({ s with aggregator := s.aggregator.retractAll.1 }.launch clock k none).after
      s.aggregator.retractAll.2 := by
  have hl : k.job.launch? = some none := by rw [hj]; rfl
  simp only [proceed, if_pos hj, hl]

theorem publishes_proceed (clock : Nat → Int) (s : Server) {k : Task} (hj : k.job = .restart) :
    Aggregator.Publishes s.aggregator.index.clearAll
      ((s.proceed clock k).1.aggregator, (s.proceed clock k).2) := by
  have hp := s.aggregator.publishes_retractAll
  have hl := plain_launch clock { s with aggregator := s.aggregator.retractAll.1 } k none
  rw [proceed_restart clock s hj]
  refine ⟨hl.index.trans hp.index, ?_⟩
  rw [Turn.after, Aggregator.publications_append, Effect.publications_of_plain hl.plain,
    List.append_nil]
  exact hp.publications

theorem hushed_proceed (clock : Nat → Int) (s : Server) {k : Task} (hj : k.job = .restart) :
    ∀ e ∈ (s.proceed clock k).2, e.isHushed = true := by
  rw [proceed_restart clock s hj]
  intro e he
  rcases List.mem_append.mp he with he | he
  · exact (s.aggregator.ofOutput_retractAll e he).isHushed
  · exact Effect.isHushed_of_isPlain ((plain_launch clock _ k none).plain e he)

theorem tells_proceed {s s₀ : Server} {m : Move} {k : Task} {front : List Effect}
    (hs : s₀.aggregator = s.aggregator) (hr : s.retracts m = decide (k.job = .restart))
    (hf : ∀ e ∈ front, e.isPlain = true) : Tells s m ((s₀.proceed clock k).after front) := by
  by_cases hj : k.job = .restart
  · have hp := publishes_after (publishes_proceed clock s₀ hj) hf
    rw [hs] at hp
    refine .retracted (by rw [hr, decide_eq_true hj]) hp fun e he => ?_
    rcases List.mem_append.mp he with he | he
    · exact Effect.isHushed_of_isPlain (hf e he)
    · exact hushed_proceed clock s₀ hj e he
  · have hp := (plain_proceed clock s₀ hj).after hf
    exact .plain (by rw [hr, decide_eq_false hj]) ⟨hs ▸ hp.index, hp.plain⟩

theorem tells_acquire {s : Server} {k : Task} {rest : List Task} (queue : s.queue = k :: rest) :
    Tells s .grant ({ s with queue := rest }.acquire clock k) := by
  rcases s.current.eq_none_or_eq_some with hc | ⟨pid, hc⟩
  · have hr : s.retracts .grant = decide (k.job = .restart) := by simp [retracts, hc, queue]
    unfold acquire
    simp only [hc]
    exact tells_proceed rfl hr (plain_stopping k)
  · have hr : s.retracts .grant = false := by simp [retracts, hc]
    unfold acquire
    simp only [hc]
    have hp := (plain_onSession
      { s with current := none, queue := rest, holder := some (k, .stopping pid) } pid
      plain_requestStop).after (plain_stopping k)
    exact .plain hr ⟨hp.index, hp.plain⟩

theorem tells_saved (s : Server) (uri : String) : Tells s (.save uri) (s.saved uri) := by
  have hsaved : (say ("Saved " ++ uri ++ ".")).isPlain = true := isPlain_say (by simp)
  unfold saved reload
  dsimp only
  split
  · next t h =>
    obtain ⟨pid, x, q, -, -, -, -, rfl⟩ := send_sending h
    exact .sent rfl [say ("Saved " ++ uri ++ ".")] q reloadCommand rfl (by simpa using hsaved) rfl
  · next e h =>
    have hskipped : (say (e.message ++ ". Restart GHCi to resume.")).isPlain = true := by
      rw [send_refusal h]
      unfold Session.Error.message
      exact isPlain_say (by simp)
    refine .plain rfl ⟨rfl, fun e' he => ?_⟩
    simp only [List.mem_cons, List.not_mem_nil, or_false] at he
    rcases he with rfl | rfl | rfl
    · exact hsaved
    · exact Effect.isPlain_note _
    · exact hskipped

theorem tells_sendTask (s : Server) (command : String) :
    Tells s (.send command) (s.sendTask command) := by
  unfold sendTask
  dsimp only
  split
  · next s' effects h =>
    obtain ⟨pid, x, q, -, -, -, -, he⟩ := send_sending h
    cases he
    exact .sent rfl [] q command rfl (by simp) rfl
  · exact .plain rfl (.nil rfl)

theorem tells_resumed (s : Server) (k : Task) (pid : Nat) (y : Sentinel) :
    Tells s .resume (s.resumed k pid y) := by
  have hp := plain_onSession s pid plain_attach
  unfold resumed
  dsimp only
  split
  · exact .plain rfl ⟨hp.index, hp.plain⟩
  · next s'' more h =>
    obtain ⟨-, x, q, -, -, -, -, he⟩ := send_sending h
    cases he
    exact .sent rfl _ q _ hp.index hp.plain rfl

/-- **Every move tells something in one of these ways.** -/
theorem step_tells {s : Server} {m : Move} {t : Turn} (h : s.step clock m = some t) : Tells s m t := by
  have hprocess : ∀ {m : Move} (pid : Nat) (f : Process → Process), s.retracts m = false →
      Tells s m (s.onProcess pid f) :=
    fun pid f hr => .plain hr (plain_onSession s pid fun x => by simp)
  cases step_turns h with
  | request job =>
    refine .plain rfl ⟨rfl, ?_⟩
    unfold request
    dsimp only
    split
    · decide
    · simp
  | inquire => exact .plain rfl ⟨rfl, by simp [Server.inquire]⟩
  | save uri => exact tells_saved s uri
  | send command => exact tells_sendTask s command
  | relocate root => exact .plain rfl (.nil rfl)
  | grant k rest lock queue => exact tells_acquire queue
  | stopped k pid lock =>
    have hr : s.retracts .stopped = decide (k.job = .restart) := by
      simp [retracts, stopsForRestart, lock]
    have hp : Tells s .stopped ((s.proceed clock k).after []) := tells_proceed rfl hr (by simp)
    exact hp
  | expired k pid lock =>
    have hr : s.retracts .expired = decide (k.job = .restart) := by
      simp [retracts, stopsForRestart, lock]
    exact tells_proceed rfl hr (plain_timeoutNotes s pid)
  | answer k reply lock => exact .plain rfl (plain_answered clock s k reply)
  | inquiry n reply => exact .plain rfl (plain_answerInquiry s n reply)
  | spawned k x y pid lock => exact .plain rfl (.nil rfl)
  | refused k x y e lock =>
    refine .plain rfl ⟨rfl, fun e' he => ?_⟩
    simp only [Server.refused, List.mem_cons, List.not_mem_nil, or_false] at he
    rcases he with rfl | rfl | rfl
    · exact Effect.isPlain_note _
    · exact Effect.isPlain_showError _
    · exact Effect.isPlain_status _
  | resume k pid y lock => exact tells_resumed s k pid y
  | write pid c chunk => exact hprocess pid _ rfl
  | close pid c => exact hprocess pid _ rfl
  | exit pid code => exact hprocess pid _ rfl
  | pump pid c => exact .pumped pid c
  | finish pid => exact .plain rfl (plain_onSession s pid plain_finish)
  | report pid t reported => exact .plain rfl (plain_report reported)

/-! ### The editor shows the index -/

end Server

end GhciRelay
