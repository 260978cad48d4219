import GhciRelay.Proofs.Succession
import GhciRelay.Proofs.Tasks

/-!
# How a handler fails

The editor's requests are handled by tasks: one that starts the interpreter, one that restarts it, one
that shuts the server down, and one for each file that is saved. If the editor answers with a list or
not at all, only one thing can go wrong for good: a process that a task has started exits before the
task returns from the start, and the prompt can no longer be written. Then the task fails, and nobody
is told (`handler_fails_iff`). A task that starts nothing never fails.

A task is followed from the request by which it began: whoever waits for the lock or holds it began
with the request of its own job (`begins_of_engaged`), and a number is given to one request only
(`begins_request_unique`).
-/

namespace GhciRelay

/-- The move belongs to a server that does nothing but handle the editor's requests, and whose editor
answers with a list or not at all. -/
def Move.isHandling : Move → Bool
  | .inquire => false
  | .send _ => false
  | .answer _ (.value (.list _)) => true
  | .answer _ (.value _) => false
  | _ => true

namespace Server

variable {clock : Nat → Int}

/-! ### Requests and their tasks -/

/-- A task waits for the lock or holds it. -/
def Engages (s : Server) (k : Task) : Prop := k ∈ s.queue ∨ ∃ g, s.holder = some (k, g)

theorem Shifts.engages {s s' : Server} {m : Move} (h : Shifts s s' m) {k : Task}
    (hk : s'.Engages k) : s.Engages k ∨ (m = .request k.job ∧ k.number = s.tasks) := by
  have hsame : ∀ {b : Books}, s'.holder = s.holder → s'.books = b → b.queue = s.queue →
      s.Engages k := by
    intro b hh hb hq
    rw [Engages, hh, show s'.queue = b.queue from congrArg Books.queue hb, hq] at hk
    exact hk
  cases h with
  | aside holder books => exact .inl (hsame holder books rfl)
  | begun job holder books =>
    rw [Engages, holder,
      show s'.queue = s.queue ++ [⟨s.tasks, job⟩] from congrArg Books.queue books] at hk
    rcases hk with hk | hk
    · rcases List.mem_append.mp hk with hk | hk
      · exact .inl (.inl hk)
      · rw [List.mem_singleton.mp hk]
        exact .inr ⟨rfl, rfl⟩
    · exact .inl (.inr hk)
  | inquired holder books => exact .inl (hsame holder books rfl)
  | saved _ holder books => exact .inl (hsame holder books rfl)
  | sent _ _ holder books => exact .inl (hsame holder books rfl)
  | informed _ _ _ _ holder books => exact .inl (hsame holder books rfl)
  | granted k' rest _ queue on =>
    refine .inl (.inl ?_)
    rw [queue]
    rcases hk with hk | ⟨g, hk⟩
    · rw [on.queue] at hk
      exact List.mem_cons_of_mem _ hk
    · cases on with
      | holds g' holder => rw [holder] at hk; cases hk; exact List.mem_cons_self
      | closed o _ holder => rw [holder] at hk; cases hk
  | advanced k' g lock on =>
    refine .inl ?_
    rcases hk with hk | ⟨g', hk⟩
    · rw [on.queue] at hk
      exact .inl hk
    · cases on with
      | holds g'' holder => rw [holder] at hk; cases hk; exact .inr ⟨g, lock⟩
      | closed o _ holder => rw [holder] at hk; cases hk

theorem Begins.append {s : Server} {n : Nat} {m : Move} {moves : List Move}
    (h : s.Begins clock n m moves) (more : List Move) : s.Begins clock n m (moves ++ more) := by
  obtain ⟨before, after, t, rfl, ht, hn⟩ := h
  exact ⟨before, after ++ more, t, by simp, ht, hn⟩

/-- **A task that is engaged began with the request of its job.** -/
theorem begins_of_engaged {s₀ : Server} : ∀ (moves : List Move) {before : List Move} {u t : Turn},
    s₀.run clock before = some u →
      (∀ k, u.1.Engages k → s₀.Begins clock k.number (.request k.job) before) →
      u.1.run clock moves = some t →
        ∀ k, t.1.Engages k → s₀.Begins clock k.number (.request k.job) (before ++ moves)
  | [], before, u, t, _, hb, h, k, hk => by
    cases h
    rw [List.append_nil]
    exact hb k hk
  | m :: moves, before, u, t, hu, hb, h, k, hk => by
    obtain ⟨t₁, t₂, h₁, h₂, rfl⟩ := run_cons.mp h
    have hrun : s₀.run clock (before ++ [m]) = some (t₁.after u.2) :=
      run_append.mpr ⟨u, t₁, hu, run_cons.mpr ⟨t₁, (t₁.1, []), h₁, rfl, by simp [Turn.after]⟩, rfl⟩
    have hstep : ∀ k, t₁.1.Engages k →
        s₀.Begins clock k.number (.request k.job) (before ++ [m]) := by
      intro k hk
      rcases (step_shifts h₁).engages hk with hk | ⟨rfl, hn⟩
      · exact (hb k hk).append [m]
      · exact ⟨before, [], u, rfl, hu, hn.symm⟩
    have ih := begins_of_engaged moves hrun hstep h₂ k hk
    rwa [List.append_assoc] at ih

theorem tasks_le_step {s : Server} {m : Move} {t : Turn} (h : s.step clock m = some t) :
    s.tasks ≤ t.1.tasks := by
  rcases (step_shifts h).numbers with ⟨ht, -⟩ | ⟨ht, -⟩ <;> omega

theorem tasks_le_run {s : Server} {moves : List Move} {t : Turn} (h : s.run clock moves = some t) :
    s.tasks ≤ t.1.tasks :=
  run_induction moves (P := fun s' => s.tasks ≤ s'.tasks)
    (fun _ _ _ _ hp h => Nat.le_trans hp (tasks_le_step h)) (Nat.le_refl _) h

theorem tasks_lt_of_request {s₀ : Server} {before between : List Move} {job : Job} {t u : Turn}
    (ht : s₀.run clock before = some t)
    (hu : s₀.run clock (before ++ .request job :: between) = some u) : t.1.tasks < u.1.tasks := by
  obtain ⟨v, w, hv, hw, hu'⟩ := run_middle hu ht
  obtain rfl : t.1.request job = v := Option.some.inj hv
  rw [hu']
  exact tasks_le_run hw

/-- **A number is given to one request.** -/
theorem begins_request_unique {s : Server} {n : Nat} {j j' : Job} {moves : List Move}
    (h : s.Begins clock n (.request j) moves) (h' : s.Begins clock n (.request j') moves) : j = j' := by
  obtain ⟨b, a, t, rfl, ht, hn⟩ := h
  obtain ⟨b', a', t', he, ht', hn'⟩ := h'
  rcases List.append_eq_append_iff.mp he with ⟨c, rfl, hc⟩ | ⟨c, rfl, hc⟩
  all_goals
    cases c with
    | nil => cases hc; rfl
    | cons m c =>
      cases hc
      first
      | have := tasks_lt_of_request ht ht'; omega
      | have := tasks_lt_of_request ht' ht; omega

/-! ### Who starts a process -/

/-- **Only a task that is to launch the interpreter** goes on when no session is left to stop. -/
def LaunchesOnly (s : Server) : Prop :=
  ∀ k g, s.holder = some (k, g) → (∀ pid, g ≠ .stopping pid) → k.job.launch? ≠ none

theorem launch?_of_proceed {s : Server} {k k' : Task} {g : Stage}
    (hh : (s.proceed clock k).1.holder = some (k', g)) : k'.job.launch? ≠ none := by
  cases hl : k.job.launch? with
  | none =>
    have hj : k.job ≠ .restart := by
      intro hj
      rw [hj] at hl
      cases hl
    simp only [proceed, if_neg hj, hl] at hh
    cases hh
  | some command =>
    cases goesOn_proceed clock s k with
    | holds g' holder =>
      rw [holder] at hh
      cases hh
      simp [hl]
    | closed o _ holder => rw [holder] at hh; cases hh

theorem launchesOnly_step {s : Server} {m : Move} {t : Turn} (hs : s.LaunchesOnly)
    (h : s.step clock m = some t) : t.1.LaunchesOnly := by
  intro k g hh hg
  cases step_passes h with
  | aside _ _ holder => exact hs k g (holder ▸ hh) hg
  | released _ _ _ holder => exact hs k g (holder ▸ hh) hg
  | stopping k' pid _ _ _ holder =>
    rw [holder] at hh
    cases hh
    exact absurd rfl (hg pid)
  | granted _ was =>
    cases step_turns h with
    | grant k' rest =>
      rw [acquire_of_none (s := { s with queue := rest }) was] at hh
      exact launch?_of_proceed hh
  | stopped => cases step_turns h with | stopped => exact launch?_of_proceed hh
  | expired => cases step_turns h with | expired => exact launch?_of_proceed hh
  | @answered k' n reply lock =>
    cases step_turns h with
    | answer k'' _ lock' =>
      cases goesOn_answered clock s k'' reply with
      | holds g' holder => rw [holder] at hh; cases hh; exact hs k _ lock' (by simp)
      | closed o _ holder => rw [holder] at hh; cases hh
    | inquiry => exact hs k g ((aside_answerInquiry s n reply).holder ▸ hh) hg
  | spawned k' x y lock _ holder => rw [holder] at hh; cases hh; exact hs k _ lock (by simp)
  | refused _ _ _ _ _ holder => rw [holder] at hh; cases hh
  | resumed _ _ _ _ _ holder => rw [holder] at hh; cases hh

theorem launchesOnly_run {s : Server} (hs : s.LaunchesOnly) {moves : List Move} {t : Turn}
    (h : s.run clock moves = some t) : t.1.LaunchesOnly :=
  run_induction moves (fun _ _ _ _ hs h => launchesOnly_step hs h) hs h

/-! ### How a handler fails -/

/-- **A task meets a process that is gone**: in the run it returns from the start of a process that has
exited meanwhile, and whose prompt was to be the given sentinel. -/
def MeetsDead (clock : Nat → Int) (s : Server) (n : Nat) (y : Sentinel) (moves : List Move) : Prop :=
  ∃ before after t k pid, moves = before ++ .resume :: after ∧ s.run clock before = some t ∧
    t.1.holder = some (k, .resuming pid y) ∧ k.number = n ∧ ¬ t.1.IsAlive pid

theorem commandOf_handling (s : Server) {n : Nat} {reply : LaunchCommand.Reply}
    (hm : (Move.answer n reply).isHandling = true) (e : LaunchCommand.ReplyError) :
    s.commandOf reply ≠ .error e := by
  cases reply with
  | failed => simp [commandOf]
  | value j =>
    cases j with
    | list items => cases items <;> simp [commandOf, LaunchCommand.firstItem]
    | _ => cases hm

theorem inquiries_step {s : Server} {m : Move} {t : Turn} (hs : s.inquiries = [])
    (hm : m.isHandling = true) (h : s.step clock m = some t) : t.1.inquiries = [] := by
  have hsame : ∀ {b : Books}, t.1.books = b → b.inquiries = s.inquiries → t.1.inquiries = [] := by
    intro b hb hi
    rw [show t.1.inquiries = b.inquiries from congrArg Books.inquiries hb, hi, hs]
  cases step_shifts h with
  | aside _ books => exact hsame books rfl
  | begun _ _ books => exact hsame books rfl
  | inquired => cases hm
  | saved _ _ books => exact hsame books rfl
  | sent => cases hm
  | informed n _ _ asked => rw [hs] at asked; cases asked
  | granted _ _ _ _ on =>
    cases on with
    | holds _ _ books => exact hsame books rfl
    | closed _ _ _ books => exact hsame books rfl
  | advanced _ _ _ on =>
    cases on with
    | holds _ _ books => exact hsame books rfl
    | closed _ _ _ books => exact hsame books rfl

theorem inquiries_run {s : Server} (hs : s.inquiries = []) {moves : List Move}
    (hm : ∀ m ∈ moves, m.isHandling = true) {t : Turn} (h : s.run clock moves = some t) :
    t.1.inquiries = [] :=
  run_induction moves (P := fun s => s.inquiries = [])
    (fun _ _ m hi hs h => inquiries_step hs (hm m hi) h) hs h

/-- **How the outcome of a handler comes about.** -/
theorem Records.handling {s : Server} {m : Move} {n : Nat} {o : Outcome} (h : Records s m n o)
    (hm : m.isHandling = true) (hs : s.inquiries = []) : o = .done ∨
      ∃ k pid y, m = .resume ∧ s.holder = some (k, .resuming pid y) ∧ k.number = n ∧
        ¬ s.IsAlive pid ∧ o = .failed (.session (.notRunning (Prompt.command y.text))) := by
  cases h with
  | granted => exact .inl rfl
  | closed k g o lock why =>
    cases why with
    | done => exact .inl rfl
    | unreadable reply e bad => exact absurd bad (s.commandOf_handling hm e)
    | installed => exact .inl rfl
    | mute pid y lock dead =>
      refine .inr ⟨k, pid, y, rfl, lock, rfl, ?_, rfl⟩
      rintro ⟨x, hx, hr⟩
      rw [dead x hx] at hr
      cases hr
  | saved => exact .inl rfl
  | sent => cases hm
  | informed n reply o asked => rw [hs] at asked; cases asked

theorem calls_attach (x : Session) : Effect.calls x.attach.2 = [] := by
  unfold Session.attach
  split <;> rfl

/-- A task that returns from the start of a process that is gone fails, and nobody is told. -/
theorem fails_of_dead {s : Server} {k : Task} {pid : Nat} {y : Sentinel}
    (lock : s.holder = some (k, .resuming pid y)) (dead : ¬ s.IsAlive pid) {t : Turn}
    (h : s.step clock .resume = some t) :
    (k.number, .failed (.session (.notRunning (Prompt.command y.text)))) ∈ t.1.outcomes ∧
      Effect.calls t.2 = [] := by
  have hcalls : Effect.calls (s.onSession pid Session.attach).2 = [] := by
    unfold onSession
    split
    · rfl
    · exact calls_attach _
  cases step_turns h with
  | resume k' pid' y' lock' =>
    rw [lock] at lock'
    cases lock'
    unfold resumed
    dsimp only
    split
    · next e he =>
      rw [send_refusal he]
      exact ⟨List.mem_append_right _ (List.mem_singleton.mpr rfl), hcalls⟩
    · next s'' more he =>
      obtain ⟨pid', x', q, hc, hx', hr, -⟩ := send_ok he
      obtain rfl : pid = pid' := Option.some.inj hc
      have hx : (s.onSession pid Session.attach).1.sessionOf pid =
          (s.sessionOf pid).map fun x => x.attach.1 := by
        rw [sessionOf_onSession]
        simp
      obtain ⟨x, hx₀, rfl⟩ := Option.map_eq_some_iff.mp (hx.symm.trans hx')
      exact absurd ⟨x, hx₀, (isRunning_attach x).symm.trans hr⟩ dead

/-- **The outcome of a handler**: it is done, or it has met a process that is gone. -/
theorem outcome_cases {s : Server} (hs : s.outcomes = []) (hi : s.inquiries = [])
    {moves : List Move} (hm : ∀ m ∈ moves, m.isHandling = true) {t : Turn}
    (h : s.run clock moves = some t) {n : Nat} {o : Outcome} (ho : (n, o) ∈ t.1.outcomes) :
    o = .done ∨ ∃ y, s.MeetsDead clock n y moves ∧
      o = .failed (.session (.notRunning (Prompt.command y.text))) := by
  rcases run_records moves h ho with hf | ⟨before, m, after, u, rfl, hu, hrec⟩
  · rw [hs] at hf; cases hf
  have hiu := inquiries_run hi (fun m' hm' => hm m' (by simp [hm'])) hu
  rcases hrec.handling (hm m (by simp)) hiu with ho | ⟨k, pid, y, rfl, lock, hn, dead, ho⟩
  · exact .inl ho
  · exact .inr ⟨y, ⟨before, after, u, k, pid, rfl, hu, lock, hn, dead⟩, ho⟩

/-- A task that meets a process that is gone has failed. -/
theorem failed_of_meetsDead {s : Server} {moves : List Move} {t : Turn}
    (h : s.run clock moves = some t) {n : Nat} {y : Sentinel} (hd : s.MeetsDead clock n y moves) :
    (n, .failed (.session (.notRunning (Prompt.command y.text)))) ∈ t.1.outcomes := by
  obtain ⟨before, after, u, k, pid, rfl, hu, lock, rfl, dead⟩ := hd
  obtain ⟨v, w, hv, hw, ht⟩ := run_middle h hu
  rw [ht]
  exact mem_outcomes_run (fails_of_dead lock dead hv).1 hw

theorem begins_of_meetsDead {settings : Settings} {workspace : Option String} {directory : String}
    {n : Nat} {y : Sentinel} {moves : List Move}
    (h : (start settings workspace directory).MeetsDead clock n y moves) :
    ∃ job, (start settings workspace directory).Begins clock n (.request job) moves ∧
      job.launch? ≠ none := by
  obtain ⟨before, after, u, k, pid, rfl, hu, lock, rfl, -⟩ := h
  have hnone : ∀ k, ¬ (start settings workspace directory).Engages k := by
    rintro k (hk | ⟨g, hk⟩) <;> cases hk
  have hlaunch : (start settings workspace directory).LaunchesOnly := fun k g hh => by cases hh
  refine ⟨k.job, ?_, launchesOnly_run hlaunch hu k _ lock (by simp)⟩
  have h₀ : (start settings workspace directory).run clock [] =
      some (start settings workspace directory, []) := rfl
  have hb := begins_of_engaged before h₀ (fun k hk => absurd hk (hnone k)) hu k (.inr ⟨_, lock⟩)
  rw [List.nil_append] at hb
  exact hb.append _

/-- **How a handler fails.** In every run in which only the editor's requests are handled and the
editor answers with a list or not at all:

* a handler fails exactly if it returns from the start of a process that has exited meanwhile, so that
  the prompt can no longer be written, and with that move no call is made to the editor;
* otherwise a handler that has ended is done: so it is with every saved file, and with every task that
  is not to launch the interpreter. -/
theorem handler_fails_iff (clock : Nat → Int) (settings : Settings) (workspace : Option String)
    (directory : String) {moves : List Move} {s : Server} {effects : List Effect}
    (h : (start settings workspace directory).run clock moves = some (s, effects))
    (hm : ∀ m ∈ moves, m.isHandling = true) (n : Nat) :
    (∀ f, (n, .failed f) ∈ s.outcomes ↔
      ∃ y, (start settings workspace directory).MeetsDead clock n y moves ∧
        f = .session (.notRunning (Prompt.command y.text))) ∧
    (∀ k pid y t, s.holder = some (k, .resuming pid y) → ¬ s.IsAlive pid →
      s.step clock .resume = some t → Effect.calls t.2 = []) ∧
    (∀ o, (n, o) ∈ s.outcomes → o = .done ∨ ∃ f, o = .failed f) ∧
    (∀ uri, (start settings workspace directory).Begins clock n (.save uri) moves →
      ∀ o, (n, o) ∈ s.outcomes ↔ o = .done) ∧
    ∀ job, (start settings workspace directory).Begins clock n (.request job) moves →
      job.launch? = none → ∀ o, (n, o) ∈ s.outcomes → o = .done := by
  have hcases : ∀ o, (n, o) ∈ s.outcomes → o = .done ∨
      ∃ y, (start settings workspace directory).MeetsDead clock n y moves ∧
        o = .failed (.session (.notRunning (Prompt.command y.text))) :=
    fun o ho => outcome_cases (s := start settings workspace directory) rfl rfl hm h ho
  have hacc : s.Accounted := accounted_run (accounted_start settings workspace directory) h
  refine ⟨fun f => ⟨fun hf => ?_, ?_⟩, fun k pid y t lock dead ht => (fails_of_dead lock dead ht).2,
    fun o ho => (hcases o ho).imp_right fun ⟨y, _, hf⟩ => ⟨_, hf⟩, ?_, ?_⟩
  · rcases hcases _ hf with hf' | ⟨y, hd, hf'⟩
    · cases hf'
    · cases hf'
      exact ⟨y, hd, rfl⟩
  · rintro ⟨y, hd, rfl⟩
    exact failed_of_meetsDead h hd
  · rintro uri ⟨before, after, u, rfl, hu, rfl⟩ o
    obtain ⟨v, w, hv, hw, ht⟩ := run_middle h hu
    obtain rfl : u.1.saved uri = v := Option.some.inj hv
    have hdone : (u.1.tasks, .done) ∈ (u.1.saved uri).1.outcomes := by
      rw [outcomes_saved]
      exact List.mem_append_right _ (List.mem_singleton.mpr rfl)
    have hmem : (u.1.tasks, .done) ∈ s.outcomes := by
      rw [show s = w.1 from ht]
      exact mem_outcomes_run hdone hw
    exact ⟨fun ho => hacc.outcome_unique ho hmem, fun ho => ho ▸ hmem⟩
  · intro job hb hj o ho
    rcases hcases o ho with ho' | ⟨y, hd, -⟩
    · exact ho'
    · obtain ⟨job', hb', hj'⟩ := begins_of_meetsDead hd
      obtain rfl := begins_request_unique hb hb'
      exact absurd hj hj'

/-- The editor has come up, its answer fails, and the process that is started exits at once, while a
file is saved. -/
def goneAtOnce : List Move :=
  [.request .initialized, .grant, .answer 0 .failed, .spawned 1, .exit 1 1, .save "file:///A", .resume]

/-- What becomes of it: the saved file is done with, and the other handler has failed. -/
def goneAtOnceOutcomes : List (Nat × Outcome) :=
  [(1, .done), (0, .failed (.session (.notRunning
    (Prompt.command (Prompt.sentinel (Prompt.milliseconds 0)).text))))]

theorem run_goneAtOnce : ∃ s effects, untouched.run (fun _ => 0) goneAtOnce = some (s, effects) ∧
    (∀ m ∈ goneAtOnce, m.isHandling = true) ∧ s.outcomes = goneAtOnceOutcomes := by
  have hrun : (untouched.run (fun _ => 0) goneAtOnce).map (·.1.outcomes) = some goneAtOnceOutcomes := by
    decide +kernel
  obtain ⟨⟨s, effects⟩, h, ho⟩ := Option.map_eq_some_iff.mp hrun
  exact ⟨s, effects, h, by simp [goneAtOnce, Move.isHandling], ho⟩

theorem handler_fails_iff_gone : ∃ s effects y,
    untouched.run (fun _ => 0) goneAtOnce = some (s, effects) ∧
      (∀ m ∈ goneAtOnce, m.isHandling = true) ∧
      (0, .failed (.session (.notRunning (Prompt.command y.text)))) ∈ s.outcomes ∧
      untouched.MeetsDead (fun _ => 0) 0 y goneAtOnce ∧ ∀ o, (1, o) ∈ s.outcomes ↔ o = .done := by
  obtain ⟨s, effects, h, hm, ho⟩ := run_goneAtOnce
  obtain ⟨hzero, -⟩ := handler_fails_iff (fun _ => 0) _ _ _ h hm 0
  obtain ⟨-, -, -, hone, -⟩ := handler_fails_iff (fun _ => 0) _ _ _ h hm 1
  have hsaved : untouched.Begins (fun _ => 0) 1 (.save "file:///A") goneAtOnce := by
    have htasks : (untouched.run (fun _ => 0) (goneAtOnce.take 5)).map (·.1.tasks) = some 1 := by
      decide +kernel
    obtain ⟨t, ht, hn⟩ := Option.map_eq_some_iff.mp htasks
    exact ⟨_, _, t, rfl, ht, hn⟩
  obtain ⟨y, hd, hf⟩ := (hzero (.session (.notRunning
    (Prompt.command (Prompt.sentinel (Prompt.milliseconds 0)).text)))).mp (by
      rw [ho]
      exact List.mem_cons_of_mem _ List.mem_cons_self)
  exact ⟨s, effects, y, h, hm, (hzero _).mpr ⟨y, hd, rfl⟩, hd, hone _ hsaved⟩

/-- **Handlers can fail**: a process exits before its prompt is written. -/
theorem handlers_can_fail : ¬ ∀ (clock : Nat → Int) (settings : Settings) (workspace : Option String)
    (directory : String) (moves : List Move) (s : Server) (effects : List Effect) (n : Nat)
    (f : Failure), (start settings workspace directory).run clock moves = some (s, effects) →
      (∀ m ∈ moves, m.isHandling = true) → (n, .failed f) ∉ s.outcomes := by
  intro hall
  obtain ⟨s, effects, h, hm, ho⟩ := run_goneAtOnce
  have hno := hall _ _ _ _ _ s effects 0 (.session (.notRunning
    (Prompt.command (Prompt.sentinel (Prompt.milliseconds 0)).text))) h hm
  rw [ho] at hno
  exact hno (List.mem_cons_of_mem _ List.mem_cons_self)

end Server

end GhciRelay
