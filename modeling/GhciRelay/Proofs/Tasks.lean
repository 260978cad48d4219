import GhciRelay.Proofs.Outward

/-!
# Where each task is

A task is known by its number. It waits in the queue for the lock, holds the lock, waits only for the
editor's answer, or has ended. `Shifts` lists how a move changes these places, with the outcome that
it records, if it does; `step_shifts` says that every move is one of them.

Two things follow. Every task is in exactly one place (`accounted_run`), so a task that has ended
neither waits nor holds the lock. And an outcome is recorded for a reason that can be named
(`run_records`).
-/

namespace GhciRelay.Server

variable {clock : Nat → Int}

/-! ### Places -/

/-- **The books on the tasks**, the one that holds the lock apart. -/
structure Books where
  queue : List Task
  inquiries : List Nat
  tasks : Nat
  outcomes : List (Nat × Outcome)
  shuttingDown : Bool

/-- The books of a server. -/
def books (s : Server) : Books := ⟨s.queue, s.inquiries, s.tasks, s.outcomes, s.shuttingDown⟩

/-- The numbers of the tasks that books name. -/
def Books.numbers (b : Books) : List Nat :=
  b.queue.map (·.number) ++ b.inquiries ++ b.outcomes.map Prod.fst

/-- The numbers of all tasks, by their places. -/
def numbers (s : Server) : List Nat := (s.holder.map (·.1.number)).toList ++ s.books.numbers

/-- **Every task is in one place.** -/
def Accounted (s : Server) : Prop := s.numbers.Perm (List.range s.tasks)

/-! ### How a task goes on -/

/-- **How the task that has the lock can end** with a move. -/
inductive Closes (s : Server) (k : Task) : Move → Outcome → Prop
  | done {m : Move} (hm : m ≠ .resume) : Closes s k m .done
  | unreadable (reply : LaunchCommand.Reply) (e : LaunchCommand.ReplyError)
    (bad : s.commandOf reply = .error e) :
    Closes s k (.answer k.number reply) (.failed (.reply e))
  | installed (pid : Nat) (y : Sentinel) (x : Session) (lock : s.holder = some (k, .resuming pid y))
    (there : s.sessionOf pid = some x) (alive : x.isRunning = true) : Closes s k .resume .done
  | mute (pid : Nat) (y : Sentinel) (lock : s.holder = some (k, .resuming pid y))
    (dead : ∀ x, s.sessionOf pid = some x → x.isRunning = false) :
    Closes s k .resume (.failed (.session (.notRunning (Prompt.command y.text))))

/-- **A task goes on**: it holds the lock, or it has ended and given the lock back. -/
inductive GoesOn (b : Books) (k : Task) (closes : Outcome → Prop) (s' : Server) : Prop
  | holds (g : Stage) (holder : s'.holder = some (k, g)) (books : s'.books = b)
  | closed (o : Outcome) (why : closes o) (holder : s'.holder = none)
    (books : s'.books = { b with outcomes := b.outcomes ++ [(k.number, o)] })

theorem GoesOn.imp {b : Books} {k : Task} {p q : Outcome → Prop} {s' : Server}
    (h : GoesOn b k p s') (hpq : ∀ o, p o → q o) : GoesOn b k q s' := by
  cases h with
  | holds g holder books => exact .holds g holder books
  | closed o why holder books => exact .closed o (hpq o why) holder books

theorem GoesOn.tasks {b : Books} {k : Task} {p : Outcome → Prop} {s' : Server}
    (h : GoesOn b k p s') : s'.tasks = b.tasks := by
  cases h with
  | holds _ _ books => exact congrArg Books.tasks books
  | closed _ _ _ books => exact congrArg Books.tasks books

theorem GoesOn.queue {b : Books} {k : Task} {p : Outcome → Prop} {s' : Server}
    (h : GoesOn b k p s') : s'.queue = b.queue := by
  cases h with
  | holds _ _ books => exact congrArg Books.queue books
  | closed _ _ _ books => exact congrArg Books.queue books

theorem GoesOn.shuttingDown {b : Books} {k : Task} {p : Outcome → Prop} {s' : Server}
    (h : GoesOn b k p s') : s'.shuttingDown = b.shuttingDown := by
  cases h with
  | holds _ _ books => exact congrArg Books.shuttingDown books
  | closed _ _ _ books => exact congrArg Books.shuttingDown books

theorem goesOn_conclude (s : Server) (k : Task) {p : Outcome → Prop} {o : Outcome} (h : p o) :
    GoesOn s.books k p (s.conclude k o) :=
  .closed o h rfl rfl

theorem goesOn_launch (clock : Nat → Int) (s : Server) (k : Task) (command : Option String) :
    GoesOn s.books k (· = .done) (s.launch clock k command).1 := by
  unfold launch
  split
  · exact goesOn_conclude s k rfl
  · cases command with
    | none => exact .holds .asking rfl rfl
    | some c => exact .holds _ rfl rfl

theorem goesOn_proceed (clock : Nat → Int) (s : Server) (k : Task) :
    GoesOn s.books k (· = .done) (s.proceed clock k).1 := by
  by_cases hj : k.job = .restart
  · have hl : k.job.launch? = some none := by rw [hj]; rfl
    simp only [proceed, if_pos hj, hl]
    exact goesOn_launch clock { s with aggregator := s.aggregator.retractAll.1 } k none
  · simp only [proceed, if_neg hj]
    cases k.job.launch? with
    | none => exact goesOn_conclude s k rfl
    | some command => exact goesOn_launch clock s k command

theorem goesOn_answered (clock : Nat → Int) (s : Server) (k : Task) (reply : LaunchCommand.Reply) :
    GoesOn s.books k (Closes s k (.answer k.number reply)) (s.answered clock k reply).1 := by
  unfold answered
  split
  · next e h => exact goesOn_conclude s k (.unreadable reply e h)
  · exact .holds _ rfl rfl

theorem goesOn_acquire (clock : Nat → Int) (s : Server) (k : Task) :
    GoesOn s.books k (· = .done) (s.acquire clock k).1 := by
  rcases s.current.eq_none_or_eq_some with hc | ⟨q, hc⟩
  · rw [acquire_of_none hc]
    exact goesOn_proceed clock s k
  · rw [acquire_of_some hc, onSession_frame]
    exact .holds (.stopping q) rfl rfl

theorem send_refusal {s : Server} {command : String} {e : Session.Error}
    (h : s.send command = .error e) : e = .notRunning command := by
  unfold send at h
  split at h
  · cases h; rfl
  · next v _ =>
    unfold Session.send at h
    cases hp : v.session.process with
    | none => simp only [hp] at h; cases h; rfl
    | some p => by_cases ha : p.isAlive = true <;> simp only [hp, ha] at h <;> cases h; rfl

theorem goesOn_resumed {s : Server} {k : Task} {pid : Nat} {y : Sentinel}
    (lock : s.holder = some (k, .resuming pid y)) :
    GoesOn s.books k (Closes s k .resume) (s.resumed k pid y).1 := by
  have hx : (s.onSession pid Session.attach).1.sessionOf pid =
      (s.sessionOf pid).map fun x => x.attach.1 := by
    rw [sessionOf_onSession]
    simp
  unfold resumed
  dsimp only
  split
  · next e h =>
    refine .closed _ ?_ rfl (by rw [onSession_frame]; rfl)
    rw [send_refusal h]
    refine .mute pid y lock fun x h' => ?_
    rw [h'] at hx
    rw [← isRunning_attach]
    exact send_error h rfl hx
  · next s'' more h =>
    obtain ⟨pid', x', q, hc, hx', hr, -⟩ := send_ok h
    obtain rfl : pid = pid' := Option.some.inj hc
    obtain ⟨x, hx₀, rfl⟩ := Option.map_eq_some_iff.mp (hx.symm.trans hx')
    rw [isRunning_attach] at hr
    refine .closed .done (.installed pid y x lock hx₀ hr) rfl ?_
    obtain rfl := send_frame h
    rw [onSession_frame]
    rfl

/-! ### How a move shifts tasks -/

/-- **How a move changes the places of tasks.** -/
inductive Shifts (s s' : Server) : Move → Prop
  | aside {m : Move} (holder : s'.holder = s.holder) (books : s'.books = s.books) : Shifts s s' m
  | begun (job : Job) (holder : s'.holder = s.holder)
    (books : s'.books = { s.books with
      queue := s.queue ++ [⟨s.tasks, job⟩]
      tasks := s.tasks + 1
      shuttingDown := s.shuttingDown || job = .shutdown }) : Shifts s s' (.request job)
  | inquired (holder : s'.holder = s.holder)
    (books : s'.books = { s.books with
      inquiries := s.inquiries ++ [s.tasks]
      tasks := s.tasks + 1 }) : Shifts s s' .inquire
  | saved (uri : String) (holder : s'.holder = s.holder)
    (books : s'.books = { s.books with
      tasks := s.tasks + 1
      outcomes := s.outcomes ++ [(s.tasks, .done)] }) : Shifts s s' (.save uri)
  | sent (command : String) (o : Outcome) (holder : s'.holder = s.holder)
    (books : s'.books = { s.books with
      tasks := s.tasks + 1
      outcomes := s.outcomes ++ [(s.tasks, o)] }) : Shifts s s' (.send command)
  | informed (n : Nat) (reply : LaunchCommand.Reply) (o : Outcome) (asked : n ∈ s.inquiries)
    (holder : s'.holder = s.holder)
    (books : s'.books = { s.books with
      inquiries := s.inquiries.erase n
      outcomes := s.outcomes ++ [(n, o)] }) : Shifts s s' (.answer n reply)
  | granted (k : Task) (rest : List Task) (lock : s.holder = none) (queue : s.queue = k :: rest)
    (on : GoesOn { s.books with queue := rest } k (· = .done) s') : Shifts s s' .grant
  | advanced {m : Move} (k : Task) (g : Stage) (lock : s.holder = some (k, g))
    (on : GoesOn s.books k (Closes s k m) s') : Shifts s s' m

theorem shifts_onSession (s : Server) (pid : Nat) (f : Session → Session × List Effect) {m : Move} :
    Shifts s (s.onSession pid f).1 m := by
  rw [onSession_frame]
  exact .aside rfl rfl

theorem shifts_report {s : Server} {pid : Nat} {t : Turn} (h : s.report pid = some t) :
    Shifts s t.1 (.report pid) := by
  rcases report_cases h with ⟨v, code, -, -, ht | ht⟩
  · rw [ht]
    exact .aside rfl rfl
  · rw [ht]
    unfold release
    split <;> exact .aside rfl rfl

theorem shifts_saved (s : Server) (uri : String) : Shifts s (s.saved uri).1 (.save uri) := by
  rcases reload_frame s.number.1 with h | h
  all_goals
    unfold saved
    dsimp only
    rw [h]
    exact .saved uri rfl rfl

theorem outcomes_saved (s : Server) (uri : String) :
    (s.saved uri).1.outcomes = s.outcomes ++ [(s.tasks, .done)] := by
  rcases reload_frame s.number.1 with h | h
  all_goals
    unfold saved
    dsimp only
    rw [h]
    rfl

theorem shifts_sendTask (s : Server) (command : String) :
    Shifts s (s.sendTask command).1 (.send command) := by
  unfold sendTask
  dsimp only
  split
  · next s' effects h =>
    obtain rfl := send_frame h
    exact .sent command _ rfl rfl
  · exact .sent command _ rfl rfl

theorem shifts_answerInquiry {s : Server} {n : Nat} (asked : n ∈ s.inquiries)
    (reply : LaunchCommand.Reply) : Shifts s (s.answerInquiry n reply).1 (.answer n reply) := by
  unfold answerInquiry
  dsimp only
  split <;> exact .informed n reply _ asked rfl rfl

/-- **Every move shifts tasks in one of these ways.** -/
theorem step_shifts {s : Server} {m : Move} {t : Turn} (h : s.step clock m = some t) :
    Shifts s t.1 m := by
  have hdone : ∀ {k : Task} {m : Move}, m ≠ .resume → ∀ o, o = .done → Closes s k m o := by
    rintro k m hm o rfl
    exact .done hm
  cases step_turns h with
  | request job => exact .begun job rfl rfl
  | inquire => exact .inquired rfl rfl
  | save uri => exact shifts_saved s uri
  | send command => exact shifts_sendTask s command
  | relocate root => exact .aside rfl rfl
  | grant k rest lock queue =>
    exact .granted k rest lock queue (goesOn_acquire clock { s with queue := rest } k)
  | stopped k pid lock =>
    exact .advanced k _ lock ((goesOn_proceed clock s k).imp (hdone (by simp)))
  | expired k pid lock =>
    exact .advanced k _ lock ((goesOn_proceed clock s k).imp (hdone (by simp)))
  | answer k reply lock => exact .advanced k _ lock (goesOn_answered clock s k reply)
  | inquiry n reply asked => exact shifts_answerInquiry asked reply
  | spawned k x y pid lock => exact .advanced k _ lock (.holds _ rfl rfl)
  | refused k x y e lock =>
    exact .advanced k _ lock (goesOn_conclude s k (.done (by simp)))
  | resume k pid y lock => exact .advanced k _ lock (goesOn_resumed lock)
  | write pid c chunk => exact shifts_onSession s pid _
  | close pid c => exact shifts_onSession s pid _
  | exit pid code => exact shifts_onSession s pid _
  | pump pid c =>
    rw [pump_frame]
    exact .aside rfl rfl
  | finish pid => exact shifts_onSession s pid _
  | report pid t reported => exact shifts_report reported

/-! ### Every task is in one place -/

namespace Books

variable (b : Books)

theorem numbers_queue (k : Task) :
    numbers { b with queue := b.queue ++ [k] } |>.Perm (k.number :: b.numbers) := by
  simp only [numbers, List.map_append, List.map_cons, List.map_nil, List.append_assoc,
    List.singleton_append]
  exact List.perm_middle

theorem numbers_inquiries (n : Nat) :
    numbers { b with inquiries := b.inquiries ++ [n] } |>.Perm (n :: b.numbers) := by
  simp only [numbers, List.append_assoc, List.singleton_append]
  rw [← List.append_assoc, ← List.append_assoc]
  exact List.perm_middle

theorem numbers_outcomes (n : Nat) (o : Outcome) :
    numbers { b with outcomes := b.outcomes ++ [(n, o)] } |>.Perm (n :: b.numbers) := by
  simp only [numbers, List.map_append, List.map_cons, List.map_nil]
  rw [← List.append_assoc]
  exact List.perm_append_singleton _ _

theorem numbers_informed {n : Nat} (asked : n ∈ b.inquiries) (o : Outcome) :
    numbers { b with
      inquiries := b.inquiries.erase n
      outcomes := b.outcomes ++ [(n, o)] } |>.Perm b.numbers := by
  refine (numbers_outcomes { b with inquiries := b.inquiries.erase n } n o).trans ?_
  have he : (n :: (b.queue.map (·.number) ++ b.inquiries.erase n)).Perm
      (b.queue.map (·.number) ++ b.inquiries) :=
    List.perm_middle.symm.trans ((List.perm_cons_erase asked).symm.append_left _)
  exact he.append_right _

end Books

theorem numbers_eq (s : Server) : s.numbers =
    (s.holder.map (·.1.number)).toList ++ s.books.numbers := rfl

theorem accounted_start (settings : Settings) (workspace : Option String) (directory : String) :
    (start settings workspace directory).Accounted :=
  .refl []

theorem GoesOn.numbers {b : Books} {k : Task} {p : Outcome → Prop} {s' : Server}
    (h : GoesOn b k p s') : s'.numbers.Perm (k.number :: b.numbers) := by
  cases h with
  | holds g holder books =>
    rw [numbers_eq, holder, books]
    exact .refl _
  | closed o _ holder books =>
    rw [numbers_eq, holder, books]
    exact b.numbers_outcomes k.number o

/-- A move leaves the tasks that are named as they are, or names the next one. -/
theorem Shifts.numbers {s s' : Server} {m : Move} (h : Shifts s s' m) :
    (s'.tasks = s.tasks ∧ s'.numbers.Perm s.numbers) ∨
      (s'.tasks = s.tasks + 1 ∧ s'.numbers.Perm (s.tasks :: s.numbers)) := by
  have hnew : ∀ {b : Books}, s'.holder = s.holder → s'.books = b →
      b.numbers.Perm (s.tasks :: s.books.numbers) → s'.numbers.Perm (s.tasks :: s.numbers) := by
    intro b holder books hp
    rw [numbers_eq, numbers_eq, holder, books]
    exact (hp.append_left _).trans List.perm_middle
  have htasks : ∀ {b : Books}, s'.books = b → s'.tasks = b.tasks := fun h => congrArg Books.tasks h
  cases h with
  | aside holder books =>
    refine .inl ⟨htasks books, ?_⟩
    rw [numbers_eq, numbers_eq, holder, books]
  | begun job holder books =>
    exact .inr ⟨htasks books, hnew holder books (s.books.numbers_queue ⟨s.tasks, job⟩)⟩
  | inquired holder books =>
    exact .inr ⟨htasks books, hnew holder books (s.books.numbers_inquiries s.tasks)⟩
  | saved uri holder books =>
    exact .inr ⟨htasks books, hnew holder books (s.books.numbers_outcomes s.tasks .done)⟩
  | sent command o holder books =>
    exact .inr ⟨htasks books, hnew holder books (s.books.numbers_outcomes s.tasks o)⟩
  | informed n reply o asked holder books =>
    refine .inl ⟨htasks books, ?_⟩
    rw [numbers_eq, numbers_eq, holder, books]
    exact (s.books.numbers_informed asked o).append_left _
  | granted k rest lock queue on =>
    have hb : s.numbers = k.number :: Books.numbers { s.books with queue := rest } := by
      rw [numbers_eq, lock]
      simp [Books.numbers, Server.books, queue]
    exact .inl ⟨on.tasks, hb ▸ on.numbers⟩
  | advanced k g lock on =>
    have hb : s.numbers = k.number :: s.books.numbers := by rw [numbers_eq, lock]; rfl
    exact .inl ⟨on.tasks, hb ▸ on.numbers⟩

theorem accounted_step {s : Server} {m : Move} {t : Turn} (hs : s.Accounted)
    (h : s.step clock m = some t) : t.1.Accounted := by
  unfold Accounted at hs ⊢
  rcases (step_shifts h).numbers with ⟨ht, hp⟩ | ⟨ht, hp⟩
  · rw [ht]
    exact hp.trans hs
  · rw [ht, List.range_succ]
    exact hp.trans ((hs.cons _).trans (List.perm_append_singleton _ _).symm)

/-- **Every run keeps every task in one place.** -/
theorem accounted_run {s : Server} (hs : s.Accounted) {moves : List Move} {t : Turn}
    (h : s.run clock moves = some t) : t.1.Accounted :=
  run_induction moves (fun _ _ _ _ hs h => accounted_step hs h) hs h

/-- The task has ended. -/
def HasEnded (s : Server) (n : Nat) : Prop := ∃ o, (n, o) ∈ s.outcomes

theorem GoesOn.holds_or_ends {b : Books} {k : Task} {p : Outcome → Prop} {s' : Server}
    (h : GoesOn b k p s') : (∃ g, s'.holder = some (k, g)) ∨ s'.HasEnded k.number := by
  cases h with
  | holds g holder => exact .inl ⟨g, holder⟩
  | closed o _ _ books =>
    refine .inr ⟨o, ?_⟩
    rw [show s'.outcomes = b.outcomes ++ [(k.number, o)] from congrArg Books.outcomes books]
    exact List.mem_append_right _ (List.mem_singleton.mpr rfl)

theorem Accounted.not_queued {s : Server} (hs : s.Accounted) {n : Nat} (he : s.HasEnded n) :
    ∀ k ∈ s.queue, k.number ≠ n := by
  rintro k hk rfl
  obtain ⟨o, ho⟩ := he
  have hnd : s.numbers.Nodup := hs.nodup_iff.mpr List.nodup_range
  have hb := (List.nodup_append.mp hnd).2.1
  refine (List.nodup_append.mp hb).2.2 k.number ?_ k.number ?_ rfl
  · exact List.mem_append_left _ (List.mem_map.mpr ⟨k, hk, rfl⟩)
  · exact List.mem_map.mpr ⟨_, ho, rfl⟩

theorem Accounted.not_holder {s : Server} (hs : s.Accounted) {n : Nat} (he : s.HasEnded n) {k : Task}
    {g : Stage} (hh : s.holder = some (k, g)) : k.number ≠ n := by
  rintro rfl
  obtain ⟨o, ho⟩ := he
  have hnd : s.numbers.Nodup := hs.nodup_iff.mpr List.nodup_range
  refine (List.nodup_append.mp hnd).2.2 k.number ?_ k.number ?_ rfl
  · rw [hh]
    exact List.mem_singleton.mpr rfl
  · exact List.mem_append_right _ (List.mem_map.mpr ⟨_, ho, rfl⟩)

/-- **A task that waits for the lock** goes on waiting until it is the first and the lock is free. -/
theorem Shifts.waits {s s' : Server} {m : Move} (h : Shifts s s' m) {k : Task} (hk : k ∈ s.queue) :
    k ∈ s'.queue ∨ (m = .grant ∧ s.holder = none ∧ ∃ rest, s.queue = k :: rest) := by
  have hsame : ∀ {b : Books}, s'.books = b → b.queue = s.queue → k ∈ s'.queue := by
    intro b hb he
    rw [show s'.queue = b.queue from congrArg Books.queue hb, he]
    exact hk
  cases h with
  | aside _ books => exact .inl (hsame books rfl)
  | begun job _ books =>
    refine .inl ?_
    rw [show s'.queue = s.queue ++ [⟨s.tasks, job⟩] from congrArg Books.queue books]
    exact List.mem_append_left _ hk
  | inquired _ books => exact .inl (hsame books rfl)
  | saved _ _ books => exact .inl (hsame books rfl)
  | sent _ _ _ books => exact .inl (hsame books rfl)
  | informed _ _ _ _ _ books => exact .inl (hsame books rfl)
  | granted k' rest lock queue on =>
    rw [queue] at hk
    rcases List.mem_cons.mp hk with rfl | hk
    · exact .inr ⟨rfl, lock, rest, queue⟩
    · exact .inl (on.queue ▸ hk)
  | advanced _ _ _ on => exact .inl (on.queue ▸ hk)

/-! ### Outcomes and their reasons -/

/-- **A move records the outcome of a task**, with its reason. -/
inductive Records (s : Server) : Move → Nat → Outcome → Prop
  | granted (k : Task) (rest : List Task) (lock : s.holder = none) (queue : s.queue = k :: rest) :
    Records s .grant k.number .done
  | closed {m : Move} (k : Task) (g : Stage) (o : Outcome) (lock : s.holder = some (k, g))
    (why : Closes s k m o) : Records s m k.number o
  | saved (uri : String) : Records s (.save uri) s.tasks .done
  | sent (command : String) (o : Outcome) : Records s (.send command) s.tasks o
  | informed (n : Nat) (reply : LaunchCommand.Reply) (o : Outcome) (asked : n ∈ s.inquiries) :
    Records s (.answer n reply) n o

theorem Shifts.outcomes {s s' : Server} {m : Move} (h : Shifts s s' m) : s'.outcomes = s.outcomes ∨
    ∃ n o, s'.outcomes = s.outcomes ++ [(n, o)] ∧ Records s m n o := by
  have hout : ∀ {b : Books}, s'.books = b → s'.outcomes = b.outcomes :=
    fun h => congrArg Books.outcomes h
  cases h with
  | aside _ books => exact .inl (hout books)
  | begun _ _ books => exact .inl (hout books)
  | inquired _ books => exact .inl (hout books)
  | saved uri _ books => exact .inr ⟨_, _, hout books, .saved uri⟩
  | sent command o _ books => exact .inr ⟨_, _, hout books, .sent command o⟩
  | informed n reply o asked _ books => exact .inr ⟨_, _, hout books, .informed n reply o asked⟩
  | granted k rest lock queue on =>
    cases on with
    | holds _ _ books => exact .inl (hout books)
    | closed o why _ books =>
      subst why
      exact .inr ⟨_, _, hout books, .granted k rest lock queue⟩
  | advanced k g lock on =>
    cases on with
    | holds _ _ books => exact .inl (hout books)
    | closed o why _ books => exact .inr ⟨_, _, hout books, .closed k g o lock why⟩

theorem Shifts.shuttingDown {s s' : Server} {m : Move} (h : Shifts s s' m)
    (hs : s.shuttingDown = true) : s'.shuttingDown = true := by
  have hsame : ∀ {b : Books}, s'.books = b → b.shuttingDown = true → s'.shuttingDown = true :=
    fun h hb => (congrArg Books.shuttingDown h).trans hb
  cases h with
  | aside _ books => exact hsame books hs
  | begun _ _ books => exact hsame books (by simp [hs])
  | inquired _ books => exact hsame books hs
  | saved _ _ books => exact hsame books hs
  | sent _ _ _ books => exact hsame books hs
  | informed _ _ _ _ _ books => exact hsame books hs
  | granted _ _ _ _ on => exact on.shuttingDown.trans hs
  | advanced _ _ _ on => exact on.shuttingDown.trans hs

theorem mem_outcomes_step {s : Server} {m : Move} {t : Turn} {e : Nat × Outcome} (he : e ∈ s.outcomes)
    (h : s.step clock m = some t) : e ∈ t.1.outcomes := by
  rcases (step_shifts h).outcomes with hs | ⟨n, o, hs, -⟩
  · exact hs ▸ he
  · rw [hs]
    exact List.mem_append_left _ he

theorem mem_outcomes_run {s : Server} {moves : List Move} {t : Turn} {e : Nat × Outcome}
    (he : e ∈ s.outcomes) (h : s.run clock moves = some t) : e ∈ t.1.outcomes :=
  run_induction moves (P := fun s => e ∈ s.outcomes) (fun _ _ _ _ he h => mem_outcomes_step he h) he h

theorem HasEnded.step {s : Server} {m : Move} {t : Turn} {n : Nat} (he : s.HasEnded n)
    (h : s.step clock m = some t) : t.1.HasEnded n := by
  obtain ⟨o, ho⟩ := he
  exact ⟨o, mem_outcomes_step ho h⟩

theorem Accounted.outcome_unique {s : Server} (hs : s.Accounted) {n : Nat} {o o' : Outcome}
    (ho : (n, o) ∈ s.outcomes) (ho' : (n, o') ∈ s.outcomes) : o = o' := by
  have hnd : s.numbers.Nodup := hs.nodup_iff.mpr List.nodup_range
  have hout : (s.outcomes.map Prod.fst).Nodup :=
    (List.nodup_append.mp (List.nodup_append.mp hnd).2.1).2.1
  exact congrArg Prod.snd (List.inj_on_of_nodup_map hout ho ho' rfl)

theorem run_middle {before after : List Move} {m : Move} {s : Server} {t u : Turn}
    (h : s.run clock (before ++ m :: after) = some t) (hu : s.run clock before = some u) :
    ∃ v w, u.1.step clock m = some v ∧ v.1.run clock after = some w ∧ t.1 = w.1 := by
  obtain ⟨u', x, hu', hx, rfl⟩ := run_append.mp h
  obtain rfl := Option.some.inj (hu.symm.trans hu')
  obtain ⟨v, w, hv, hw, rfl⟩ := run_cons.mp hx
  exact ⟨v, w, hv, hw, rfl⟩

/-- **The task of a number begins** in a run, with a move. -/
def Begins (clock : Nat → Int) (s : Server) (n : Nat) (m : Move) (moves : List Move) : Prop :=
  ∃ before after t, moves = before ++ m :: after ∧ s.run clock before = some t ∧ t.1.tasks = n

/-- **Every outcome was recorded** by a move of the run, unless it was there before. -/
theorem run_records {n : Nat} {o : Outcome} : ∀ (moves : List Move) {s : Server} {t : Turn},
    s.run clock moves = some t → (n, o) ∈ t.1.outcomes → (n, o) ∈ s.outcomes ∨
      ∃ before m after u, moves = before ++ m :: after ∧ s.run clock before = some u ∧
        Records u.1 m n o
  | [], s, t, h, ho => by cases h; exact .inl ho
  | m :: moves, s, t, h, ho => by
    obtain ⟨t₁, t₂, hs, hr, rfl⟩ := run_cons.mp h
    rcases run_records moves hr ho with ho₁ | ⟨before, m', after, u, rfl, hb, hrec⟩
    · rcases (step_shifts hs).outcomes with he | ⟨n', o', he, hrec⟩
      · exact .inl (he ▸ ho₁)
      · rw [he, List.mem_append, List.mem_singleton] at ho₁
        refine ho₁.imp_right fun heq => ?_
        cases heq
        exact ⟨[], m, moves, (s, []), rfl, rfl, hrec⟩
    · exact .inr ⟨m :: before, m', after, u.after t₁.2, rfl,
        run_cons.mpr ⟨t₁, u, hs, hb, rfl⟩, hrec⟩

end GhciRelay.Server
