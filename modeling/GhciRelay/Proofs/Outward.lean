import GhciRelay.Proofs.Lock

/-!
# What a move does outside

Most effects of a move are *routine*: a line in a log, a publication, a status, a question to the
editor. The others are *weighty*: a process is started, written to or killed, an error is shown, or a
status says that there is no interpreter. `step_outward` lists the weighty effects that a move can
have, each with what it needs, and says what becomes of the *tuning* of the aggregator: the sentinel
that it listens for and the root of its paths.
-/

namespace GhciRelay

/-! ### Weighty effects -/

namespace Effect

/-- Nothing outside depends on the effect but what the editor shows and the log holds. -/
def isRoutine : Effect → Bool
  | .tell (.showError _) => false
  | .tell (.status text) => text ≠ "Stopped"
  | .tell _ => true
  | .note _ => true
  | .ask _ => true
  | _ => false

/-- **The weighty effects** among effects. -/
def weighty (effects : List Effect) : List Effect := effects.filter fun e => !e.isRoutine

theorem weighty_append (e₁ e₂ : List Effect) : weighty (e₁ ++ e₂) = weighty e₁ ++ weighty e₂ :=
  List.filter_append ..

theorem weighty_eq_nil {effects : List Effect} :
    weighty effects = [] ↔ ∀ e ∈ effects, e.isRoutine = true := by
  simp [weighty, List.filter_eq_nil_iff]

theorem mem_weighty {effects : List Effect} {e : Effect} :
    e ∈ weighty effects ↔ e ∈ effects ∧ e.isRoutine = false := by
  simp [weighty, List.mem_filter]

end Effect

namespace Session

theorem send_ok {x : Session} {command : String} {effects : List Effect}
    (h : x.send command = .ok effects) :
    ∃ q, x.isRunning = true ∧ x.pid? = some q ∧ effects = [.write q (command ++ "\n")] := by
  unfold send at h
  cases hp : x.process with
  | none => rw [hp] at h; cases h
  | some p =>
    simp only [hp] at h
    split at h
    · next ha =>
      cases h
      exact ⟨p.pid, by simpa [isRunning, hp] using ha, by simp [pid?, hp], rfl⟩
    · cases h

theorem send_error {x : Session} {command : String} {e : Error} (h : x.send command = .error e) :
    x.isRunning = false := by
  unfold send at h
  cases hp : x.process with
  | none => simp [isRunning, hp]
  | some p =>
    simp only [hp] at h
    split at h
    · cases h
    · next ha => simpa [isRunning, hp] using ha

end Session

namespace LineReader

/-- Whatever holds of the effects of each piece holds of those of all of them. -/
theorem deliverFrom_effects {σ ε : Type} (channel : Channel)
    (handler : σ → String → Except ε (σ × List Effect)) {P : Effect → Prop}
    (hP : ∀ state p, ∀ e ∈ (deliver channel handler state p).2, P e) :
    ∀ (ps : List Piece) (state : σ) (done : List Effect), (∀ e ∈ done, P e) →
      ∀ e ∈ (deliverFrom channel handler state done ps).2, P e
  | [], _, done, hd, e, he => hd e (List.mem_reverse.mp he)
  | p :: ps, state, done, hd, e, he => by
    refine deliverFrom_effects channel handler hP ps _ _ (fun e' he' => ?_) e he
    rcases List.mem_append.mp he' with he' | he'
    · exact hP state p e' (List.mem_reverse.mp he')
    · exact hd e' he'

end LineReader

/-- **An effect that comes of output**: a file is published, a line is logged, the interpreter is idle
again, or something is noted. -/
inductive Effect.OfOutput : Effect → Prop
  | published (u : String) (ds : List Diagnostic) : OfOutput (.tell (.publish u ds))
  | output (line : String) : OfOutput (.tell (.log ("[stdout] " ++ line)))
  | error (line : String) : OfOutput (.tell (.log ("[stderr] " ++ line)))
  | idle : OfOutput (.tell (.status "Idle"))
  | noted (entry : Log.Entry) : OfOutput (.note entry)

theorem Effect.OfOutput.isRoutine {e : Effect} (h : e.OfOutput) : e.isRoutine = true := by
  cases h <;> rfl

namespace Aggregator

theorem ofOutput_republish (a : Aggregator) : ∀ e ∈ a.republish.2, e.OfOutput := by
  intro e he
  obtain ⟨u, -, rfl⟩ := List.mem_map.mp he
  exact .published _ _

theorem ofOutput_retractAll (a : Aggregator) : ∀ e ∈ a.retractAll.2, e.OfOutput := by
  intro e he
  rcases List.mem_append.mp he with he | he
  · exact ofOutput_republish _ e he
  · rw [List.mem_singleton.mp he]
    exact .noted _

theorem ofOutput_handle {a : Aggregator} {record : Record} {result : Aggregator × List Effect}
    (h : a.handle record = .ok result) : ∀ e ∈ result.2, e.OfOutput := by
  intro e he
  cases record with
  | report r =>
    obtain ⟨u, d, -, -, rfl⟩ := handleReport_ok h
    exact ofOutput_republish _ e he
  | compiling b =>
    obtain ⟨u, n, -, -, h₂⟩ := handleBanner_ok h
    rw [h₂] at he
    rcases List.mem_cons.mp he with rfl | he
    · exact .noted _
    · exact ofOutput_republish _ e he
  | interactive line => cases h; rw [List.mem_singleton.mp he]; exact .output line
  | prompt line => cases h; rw [List.mem_singleton.mp he]; exact .idle
  | plain line => cases h; rw [List.mem_singleton.mp he]; exact .output line

end Aggregator

namespace Server

variable {clock : Nat → Int}

theorem ofOutput_deliver (c : Channel) (a : Aggregator) (p : Piece) :
    ∀ e ∈ (LineReader.deliver c (listener c) a p).2, e.OfOutput := by
  intro e he
  cases p with
  | tooLong bytes => rw [List.mem_singleton.mp he]; exact .noted _
  | line bytes =>
    unfold LineReader.deliver at he
    dsimp only at he
    split at he
    · next a' effects h =>
      cases c with
      | stdout =>
        obtain ⟨record, -, hh⟩ := Aggregator.onStdout_ok h
        exact Aggregator.ofOutput_handle hh e he
      | stderr => cases h; rw [List.mem_singleton.mp he]; exact .error _
    · rw [List.mem_singleton.mp he]; exact .noted _

/-- **All that pumping does** comes of output. -/
theorem ofOutput_pump (s : Server) (pid : Nat) (c : Channel) :
    ∀ e ∈ (s.pump pid c).2, e.OfOutput := by
  rw [(pump_delivers s pid c).2]
  exact LineReader.deliverFrom_effects c (listener c) (ofOutput_deliver c) _ _ _ (by simp)

/-! ### The tuning -/

/-- **The tuning** of the aggregator: the sentinel that it listens for and the root of its paths. -/
def tuning (s : Server) : Option Sentinel × Option String :=
  (s.aggregator.sentinel, s.aggregator.root)

/-- The tuning stays, and no task begins to wait for the start of a process. -/
structure Kept (s s' : Server) : Prop where
  tuning : s'.tuning = s.tuning
  spawning : ∀ t x y, s'.holder = some (t, .spawning x y) → s.holder = some (t, .spawning x y)

theorem Kept.of_eq {s s' : Server} (ht : s'.tuning = s.tuning) (hh : s'.holder = s.holder) :
    Kept s s' :=
  ⟨ht, fun _ _ _ h => hh.symm.trans h⟩

theorem Kept.of_ne {s s' : Server} (ht : s'.tuning = s.tuning)
    (hh : ∀ t x y, s'.holder ≠ some (t, .spawning x y)) : Kept s s' :=
  ⟨ht, fun t x y h => absurd h (hh t x y)⟩

theorem Kept.trans {s₁ s₂ s₃ : Server} (h₁ : Kept s₁ s₂) (h₂ : Kept s₂ s₃) : Kept s₁ s₃ :=
  ⟨h₂.tuning.trans h₁.tuning, fun t x y h => h₁.spawning t x y (h₂.spawning t x y h)⟩

theorem kept_onSession (s : Server) (pid : Nat) (f : Session → Session × List Effect) :
    Kept s (s.onSession pid f).1 := by
  rw [onSession_frame]
  exact .of_eq rfl rfl

theorem kept_pump (s : Server) (pid : Nat) (c : Channel) : Kept s (s.pump pid c).1 :=
  .of_eq (by rw [tuning, aggregator_pump, tuning]) (by rw [pump_frame])

/-! ### The end of a session -/

/-- **How the end of a session is reported**, by the way in which it came. -/
inductive Ends (s : Server) (pid : Nat) (v : Supervised) (code : Int) : Turn → Prop
  | crashed (unasked : v.session.stopRequested = false) (bad : code ≠ 0) :
    Ends s pid v code ((s.markReported pid v).release pid, crashReport (Exit.ofReturnCode code))
  | dismissed (asked : v.session.stopRequested = true ∨ s.shuttingDown = true ∧ code = 0) :
    Ends s pid v code (s.markReported pid v, [say "GHCi stopped."])
  | left (unasked : v.session.stopRequested = false) (clean : code = 0) :
    Ends s pid v code
      ((s.markReported pid v).release pid, [say "GHCi exited successfully.", stoppedStatus])

theorem report_ends {s : Server} {pid : Nat} {t : Turn} (h : s.report pid = some t) :
    ∃ v code, s.sessions.get? pid = some v ∧ v.reported = false ∧ v.session.attached = true ∧
      v.session.finished = some code ∧ Ends s pid v code t := by
  unfold report at h
  split at h
  · cases h
  · next v hv =>
    split at h
    · cases h
    · next hr =>
      have hr' : v.reported = false := by simpa using hr
      unfold Session.wait at h
      by_cases ha : v.session.attached = true
      · rw [if_pos ha] at h
        cases hf : v.session.finished with
        | none => simp only [hf] at h; cases h
        | some code =>
          refine ⟨v, code, hv, hr', ha, hf, ?_⟩
          have hc := Exit.isClean_ofReturnCode code
          simp only [hf] at h
          by_cases hs : v.session.stopRequested = true
          · simp only [hs, Bool.true_or, if_true] at h
            cases h
            exact .dismissed (.inl hs)
          · have hs' : v.session.stopRequested = false := by simpa using hs
            by_cases hz : code = 0
            · simp only [hs', hc.mpr hz, Bool.or_true, if_true, Bool.false_or] at h
              split at h
              · next hd => cases h; exact .dismissed (.inr ⟨hd, hz⟩)
              · cases h; exact .left hs' hz
            · have hn : (Exit.ofReturnCode code).isClean = false := by
                rw [← Bool.not_eq_true, hc]
                exact hz
              simp only [hs', hn, Bool.or_false, Bool.false_eq_true, if_false] at h
              cases h
              exact .crashed hs' hz
      · rw [if_neg ha] at h
        cases h

/-! ### Commands -/

theorem send_ok {s : Server} {command : String} {t : Turn} (h : s.send command = .ok t) :
    ∃ pid x q, s.current = some pid ∧ s.sessionOf pid = some x ∧ x.isRunning = true ∧
      x.pid? = some q ∧ Effect.weighty t.2 = [.write q (command ++ "\n")] := by
  unfold send at h
  split at h
  · cases h
  · next v hv =>
    obtain ⟨pid, hc, hp⟩ := Option.bind_eq_some_iff.mp hv
    split at h
    · cases h
    · next effects he =>
      obtain ⟨q, hr, hq, rfl⟩ := Session.send_ok he
      cases h
      refine ⟨pid, v.session, q, hc, congrArg _ hp, hr, hq, ?_⟩
      have hs : "Running " ++ command ≠ "Stopped" := by
        intro hs
        have := congrArg (fun s => s.toList.head?) hs
        simp at this
      simp [Effect.weighty, Effect.isRoutine, hs]

theorem send_error {s : Server} {command : String} {e : Session.Error}
    (h : s.send command = .error e) {pid : Nat} {x : Session} (hc : s.current = some pid)
    (hx : s.sessionOf pid = some x) : x.isRunning = false := by
  obtain ⟨v, hv, rfl⟩ := Option.map_eq_some_iff.mp hx
  unfold send at h
  rw [hc, Option.bind_some, hv] at h
  dsimp only at h
  split at h
  · next e' he => exact Session.send_error he
  · cases h

/-! ### Launching -/

/-- **What a task does outside that goes on**: nothing, or it starts a process for a session that it
has prepared, and the aggregator is tuned to that session. -/
inductive Launches (s s' : Server) : List Effect → Prop
  | idle (kept : Kept s s') : Launches s s' []
  | spawn (t : Task) (command : String) (directory : Option String) (y : Sentinel)
    (holder : s'.holder = some (t, .spawning (.create command directory) y))
    (tuning : s'.tuning = (some y, directory)) : Launches s s' [.spawn command directory true]

theorem launches_conclude (s : Server) (t : Task) (outcome : Outcome) :
    Launches s (s.conclude t outcome) [] :=
  .idle (.of_ne rfl (by simp [conclude, record]))

theorem launches_prepare (clock : Nat → Int) (s : Server) (t : Task) (command : String) :
    Launches s (s.prepare clock t command).1 (Effect.weighty (s.prepare clock t command).2) :=
  .spawn t command s.workspace _ rfl rfl

theorem weighty_after (t : Turn) {effects : List Effect} (h : Effect.weighty effects = []) :
    Effect.weighty (t.after effects).2 = Effect.weighty t.2 := by
  rw [Turn.after, Effect.weighty_append, h, List.nil_append]

theorem launches_launch (clock : Nat → Int) (s : Server) (t : Task) (command : Option String) :
    Launches s (s.launch clock t command).1 (Effect.weighty (s.launch clock t command).2) := by
  unfold launch
  split
  · exact launches_conclude s t .done
  · rw [weighty_after _ (by decide)]
    cases command with
    | none => exact .idle (.of_ne rfl (by simp [Turn.after]))
    | some c => exact launches_prepare clock s t c

theorem Launches.of_kept {s₁ s₂ s₃ : Server} {effects : List Effect} (hk : Kept s₁ s₂)
    (h : Launches s₂ s₃ effects) : Launches s₁ s₃ effects := by
  cases h with
  | idle kept => exact .idle (hk.trans kept)
  | spawn t command directory y holder tuning => exact .spawn t command directory y holder tuning

theorem launches_proceed (clock : Nat → Int) (s : Server) (t : Task) :
    Launches s (s.proceed clock t).1 (Effect.weighty (s.proceed clock t).2) := by
  by_cases hj : t.job = .restart
  · have hl : t.job.launch? = some none := by rw [hj]; rfl
    simp only [proceed, if_pos hj, hl]
    have hr : Effect.weighty s.aggregator.retractAll.2 = [] :=
      Effect.weighty_eq_nil.mpr fun e he => (s.aggregator.ofOutput_retractAll e he).isRoutine
    rw [weighty_after _ hr]
    have hk : Kept s { s with aggregator := s.aggregator.retractAll.1 } := .of_eq rfl rfl
    exact .of_kept hk (launches_launch clock _ t none)
  · simp only [proceed, if_neg hj]
    rw [weighty_after _ rfl]
    cases t.job.launch? with
    | none => exact launches_conclude s t .done
    | some command => exact launches_launch clock s t command

theorem commandOf_notes {s : Server} {reply : LaunchCommand.Reply} {command : String}
    {effects : List Effect} (h : s.commandOf reply = .ok (command, effects)) :
    ∀ e ∈ effects, ∃ entry, e = .note entry := by
  intro e he
  cases reply with
  | failed => cases h; exact ⟨_, List.mem_singleton.mp he⟩
  | value j =>
    simp only [commandOf] at h
    split at h
    · cases h
    · cases h
      obtain ⟨n, -, rfl⟩ := List.mem_map.mp he
      exact ⟨n, rfl⟩

theorem routine_commandOf {s : Server} {reply : LaunchCommand.Reply} {command : String}
    {effects : List Effect} (h : s.commandOf reply = .ok (command, effects)) :
    Effect.weighty effects = [] := by
  rw [Effect.weighty_eq_nil]
  intro e he
  obtain ⟨entry, rfl⟩ := commandOf_notes h e he
  rfl

theorem launches_answered (clock : Nat → Int) (s : Server) (t : Task) (reply : LaunchCommand.Reply) :
    Launches s (s.answered clock t reply).1 (Effect.weighty (s.answered clock t reply).2) := by
  unfold answered
  split
  · exact launches_conclude s t _
  · next command effects h =>
    rw [weighty_after _ (routine_commandOf h)]
    exact launches_prepare clock s t command

/-! ### What a move does outside -/

/-- **The weighty effects of a move**, each with what it needs. -/
inductive Outward (s s' : Server) : Move → List Effect → Prop
  | quiet {m : Move} (hm : m ≠ .resume) (kept : Kept s s') : Outward s s' m []
  | wrote {m : Move} (hm : m ≠ .resume) (pid : Nat) (x : Session) (q : Nat) (command : String)
    (was : s.current = some pid) (there : s.sessionOf pid = some x) (alive : x.isRunning = true)
    (number : x.pid? = some q) (kept : Kept s s') : Outward s s' m [.write q (command ++ "\n")]
  | killed (pid : Nat) (x : Session) (q : Nat) (was : s.current = some pid)
    (there : s.sessionOf pid = some x) (number : x.pid? = some q) (kept : Kept s s') :
    Outward s s' .grant [.killGroup q]
  | spawn {m : Move} (hm : m ≠ .resume) (t : Task) (command : String) (directory : Option String)
    (y : Sentinel) (holder : s'.holder = some (t, .spawning (.create command directory) y))
    (tuning : s'.tuning = (some y, directory)) : Outward s s' m [.spawn command directory true]
  | refused (e : OsError) (text : String) (kept : Kept s s') :
    Outward s s' (.refused e) [.tell (.showError text), stoppedStatus]
  | installed (t : Task) (pid : Nat) (y : Sentinel) (x : Session) (q : Nat)
    (lock : s.holder = some (t, .resuming pid y)) (there : s.sessionOf pid = some x)
    (alive : x.isRunning = true) (number : x.pid? = some q) (kept : Kept s s') :
    Outward s s' .resume [.write q (Prompt.command y.text ++ "\n")]
  | mute (t : Task) (pid : Nat) (y : Sentinel) (lock : s.holder = some (t, .resuming pid y))
    (dead : ∀ x, s.sessionOf pid = some x → x.isRunning = false) (kept : Kept s s') :
    Outward s s' .resume []
  | crashed (pid : Nat) (v : Supervised) (code : Int) (text : String)
    (there : s.sessions.get? pid = some v) (finished : v.session.finished = some code)
    (unasked : v.session.stopRequested = false) (bad : code ≠ 0) (kept : Kept s s') :
    Outward s s' (.report pid) [.tell (.showError text), stoppedStatus]
  | left (pid : Nat) (v : Supervised) (there : s.sessions.get? pid = some v)
    (unasked : v.session.stopRequested = false) (kept : Kept s s') :
    Outward s s' (.report pid) [stoppedStatus]

theorem Launches.outward {s s' : Server} {effects : List Effect} (h : Launches s s' effects)
    {m : Move} (hm : m ≠ .resume) : Outward s s' m effects := by
  cases h with
  | idle kept => exact .quiet hm kept
  | spawn t command directory y holder tuning => exact .spawn hm t command directory y holder tuning

theorem Kept.outward {s s' : Server} {m : Move} {effects : List Effect} (hk : Kept s s')
    (hm : m ≠ .resume) (he : Effect.weighty effects = []) :
    Outward s s' m (Effect.weighty effects) := by
  rw [he]
  exact .quiet hm hk

theorem kept_release (s : Server) (pid : Nat) : Kept s (s.release pid) := by
  unfold release
  split <;> exact .of_eq rfl rfl

theorem outward_report {s : Server} {pid : Nat} {t : Turn} (h : s.report pid = some t) :
    Outward s t.1 (.report pid) (Effect.weighty t.2) := by
  obtain ⟨v, code, hv, -, -, hf, he⟩ := report_ends h
  have hm : Kept s (s.markReported pid v) := .of_eq rfl rfl
  have hk : Kept s ((s.markReported pid v).release pid) := hm.trans (kept_release _ pid)
  cases he with
  | crashed unasked bad => exact .crashed pid v code _ hv hf unasked bad hk
  | dismissed asked => exact hm.outward (by simp) rfl
  | left unasked clean => exact .left pid v hv unasked hk

theorem outward_saved (s : Server) (uri : String) :
    Outward s (s.saved uri).1 (.save uri) (Effect.weighty (s.saved uri).2) := by
  unfold saved reload
  dsimp only
  split
  · next t h =>
    obtain ⟨pid, x, q, hc, hx, hr, hq, he⟩ := send_ok h
    have hw : Effect.weighty (say ("Saved " ++ uri ++ ".") :: t.2) = Effect.weighty t.2 := rfl
    rw [hw, he]
    refine .wrote (by simp) pid x q reloadCommand hc hx hr hq ?_
    rw [send_frame h]
    exact .of_eq rfl rfl
  · exact Kept.outward (.of_eq rfl rfl) (by simp) rfl

theorem outward_sendTask (s : Server) (command : String) :
    Outward s (s.sendTask command).1 (.send command) (Effect.weighty (s.sendTask command).2) := by
  unfold sendTask
  dsimp only
  split
  · next s' effects h =>
    obtain ⟨pid, x, q, hc, hx, hr, hq, he⟩ := send_ok h
    rw [he]
    refine .wrote (by simp) pid x q command hc hx hr hq ?_
    obtain rfl := send_frame h
    exact .of_eq rfl rfl
  · exact Kept.outward (.of_eq rfl rfl) (by simp) rfl

theorem requestStop_effects (x : Session) : (x.requestStop true).2 = [] ∨
    ∃ q, x.pid? = some q ∧ (x.requestStop true).2 = [.killGroup q] := by
  unfold Session.requestStop
  split
  · exact .inl rfl
  · next p hp =>
    dsimp only
    split
    · exact .inr ⟨p.pid, by simp [Session.pid?, hp], rfl⟩
    · exact .inl rfl

theorem outward_stopping {s s₀ s' : Server} {pid : Nat} (hc : s.current = some pid)
    (hs : s₀.sessions = s.sessions) (hk : Kept s s') : Outward s s' .grant
      (Effect.weighty (s₀.onSession pid fun x => x.requestStop true).2) := by
  cases hv : s.sessions.get? pid with
  | none =>
    simp only [onSession, hs, hv]
    exact hk.outward (by simp) rfl
  | some v =>
    simp only [onSession, hs, hv]
    rcases requestStop_effects v.session with he | ⟨q, hq, he⟩
    · rw [he]
      exact hk.outward (by simp) rfl
    · rw [he]
      exact .killed pid v.session q hc (congrArg _ hv) hq hk

theorem outward_acquire {s : Server} {k : Task} {rest : List Task} :
    Outward s ({ s with queue := rest }.acquire clock k).1 .grant
      (Effect.weighty ({ s with queue := rest }.acquire clock k).2) := by
  have hr : Effect.weighty
      (if k.job = .restart then [say "Stopping GHCi ...", status "Stopping GHCi"] else []) = [] := by
    split <;> rfl
  rcases s.current.eq_none_or_eq_some with hc | ⟨pid, hc⟩
  · have hk : Kept s { s with queue := rest } := .of_eq rfl rfl
    have hl := Launches.of_kept hk (launches_proceed clock _ k)
    have hm : Move.grant ≠ .resume := by simp
    unfold acquire
    simp only [hc]
    rw [weighty_after _ hr]
    simp only [hc] at hl
    exact hl.outward hm
  · unfold acquire
    simp only [hc]
    rw [weighty_after _ hr]
    refine outward_stopping hc rfl ?_
    unfold Turn.after
    rw [onSession_frame]
    exact .of_ne rfl (by simp)

theorem weighty_attach (x : Session) : Effect.weighty x.attach.2 = [] := by
  unfold Session.attach
  split <;> rfl

theorem isRunning_attach (x : Session) : x.attach.1.isRunning = x.isRunning := by
  rw [Session.isRunning, Session.process_attach]
  rfl

theorem pid?_attach (x : Session) : x.attach.1.pid? = x.pid? := by
  rw [Session.pid?, Session.process_attach]
  rfl

theorem outward_resumed {s : Server} {k : Task} {pid : Nat} {y : Sentinel}
    (hh : s.holder = some (k, .resuming pid y)) :
    Outward s (s.resumed k pid y).1 .resume (Effect.weighty (s.resumed k pid y).2) := by
  have ha : Effect.weighty (s.onSession pid Session.attach).2 = [] := by
    unfold onSession
    split
    · rfl
    · exact weighty_attach _
  have hx : (s.onSession pid Session.attach).1.sessionOf pid =
      (s.sessionOf pid).map fun x => x.attach.1 := by
    rw [sessionOf_onSession]
    simp
  unfold resumed
  dsimp only
  split
  · next e h =>
    rw [ha]
    refine .mute k pid y hh (fun x h' => ?_) ?_
    · rw [h'] at hx
      rw [← isRunning_attach]
      exact send_error h rfl hx
    · rw [onSession_frame]
      exact .of_ne rfl (by simp [conclude, record])
  · next s'' more h =>
    rw [Effect.weighty_append, ha, List.nil_append]
    obtain ⟨pid', x', q, hc, hx', hr, hq, he⟩ := send_ok h
    obtain rfl : pid = pid' := Option.some.inj hc
    obtain ⟨x, hx₀, rfl⟩ := Option.map_eq_some_iff.mp (hx.symm.trans hx')
    rw [isRunning_attach] at hr
    rw [pid?_attach] at hq
    dsimp only at he
    rw [he]
    refine .installed k pid y x q hh hx₀ hr hq ?_
    obtain rfl := send_frame h
    rw [onSession_frame]
    exact .of_ne rfl (by simp [conclude, record])

theorem outward_onSession (s : Server) (pid : Nat) (f : Session → Session × List Effect) {m : Move}
    (hm : m ≠ .resume) (hf : ∀ x, Effect.weighty (f x).2 = []) :
    Outward s (s.onSession pid f).1 m (Effect.weighty (s.onSession pid f).2) := by
  refine (kept_onSession s pid f).outward hm ?_
  unfold onSession
  split
  · rfl
  · exact hf _

/-- **What a move does outside.** -/
theorem step_outward {s : Server} {m : Move} {t : Turn} (h : s.step clock m = some t) :
    Outward s t.1 m (Effect.weighty t.2) := by
  cases step_turns h with
  | request job =>
    refine Kept.outward (.of_eq rfl rfl) (by simp) ?_
    unfold request
    dsimp only
    split <;> rfl
  | inquire => exact Kept.outward (.of_eq rfl rfl) (by simp) rfl
  | save uri => exact outward_saved s uri
  | send command => exact outward_sendTask s command
  | relocate root => exact Kept.outward (.of_eq rfl rfl) (by simp) rfl
  | grant k rest => exact outward_acquire
  | stopped k => exact (launches_proceed clock s k).outward (by simp)
  | expired k pid =>
    rw [weighty_after _ (by unfold timeoutNotes; split <;> rfl)]
    exact (launches_proceed clock s k).outward (by simp)
  | answer k reply => exact (launches_answered clock s k reply).outward (by simp)
  | inquiry n reply =>
    unfold answerInquiry
    split
    · exact Kept.outward (.of_eq rfl rfl) (by simp) rfl
    · next command effects hc =>
      exact Kept.outward (.of_eq rfl rfl) (by simp) (routine_commandOf hc)
  | spawned k x y pid lock =>
    exact Kept.outward (.of_ne rfl (by simp [Server.spawned])) (by simp) rfl
  | refused k x y e lock =>
    exact .refused e _ (.of_ne rfl (by simp [Server.refused, conclude, record]))
  | resume k pid y lock => exact outward_resumed lock
  | write pid c chunk => exact outward_onSession s pid _ (by simp) fun x => rfl
  | close pid c => exact outward_onSession s pid _ (by simp) fun x => rfl
  | exit pid code => exact outward_onSession s pid _ (by simp) fun x => rfl
  | pump pid c =>
    have hr : Effect.weighty (s.pump pid c).2 = [] :=
      Effect.weighty_eq_nil.mpr fun e he => (ofOutput_pump s pid c e he).isRoutine
    exact (kept_pump s pid c).outward (by simp) hr
  | finish pid =>
    refine outward_onSession s pid _ (by simp) fun x => ?_
    unfold Session.finish
    split <;> rfl
  | report pid t reported => exact outward_report reported

end Server

end GhciRelay
