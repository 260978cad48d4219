import GhciRelay.Proofs.Attunement
import GhciRelay.Proofs.Tasks

/-!
# Shutting down is final

A task that shuts the server down says so at once and only then waits for the lock, while other tasks
may be anywhere in their own stages. When it has ended, the server is *closed*: it shuts down, there is
no current session, and nobody holds the lock. No move opens a closed server again: a task that gets
the lock finds nothing to stop and is not allowed to launch (`Closed.step`).

Until then the task waits in the queue or for the end of the session that it stops (`Leaving`). As
every task is in one place, a task that has ended leaves only the third possibility.
-/

namespace GhciRelay.Server

variable {clock : Nat → Int}

/-! ### Closed servers -/

/-- **A closed server** shuts down, has no current session, and nobody holds its lock. -/
structure Closed (s : Server) : Prop where
  shuttingDown : s.shuttingDown = true
  current : s.current = none
  holder : s.holder = none

theorem holder_proceed {s : Server} (hs : s.shuttingDown = true) (k : Task) :
    (s.proceed clock k).1.holder = none := by
  by_cases hj : k.job = .restart
  · have hl : k.job.launch? = some none := by rw [hj]; rfl
    simp only [proceed, if_pos hj, hl, launch, hs, if_true]
    rfl
  · simp only [proceed, if_neg hj, launch, hs, if_true]
    cases k.job.launch? <;> rfl

theorem closed_proceed {s : Server} (hs : s.shuttingDown = true) (hc : s.current = none) (k : Task) :
    (s.proceed clock k).1.Closed where
  shuttingDown := (goesOn_proceed clock s k).shuttingDown.trans hs
  current := (proceeds_proceed clock s k).current.trans hc
  holder := holder_proceed hs k

/-- What is done with a closed server: nothing is started and nothing is written. -/
structure Refrains (m : Move) (effects : List Effect) : Prop where
  spawns : Effect.spawns effects = []
  written : ∀ pid, Effect.written pid effects = []
  spawned : ∀ pid, m ≠ .spawned pid

section Closed

variable {s : Server} {m : Move} {t : Turn}

/-- **A closed server stays closed.** -/
theorem Closed.step (hs : s.Closed) (h : s.step clock m = some t) : t.1.Closed := by
  have hd := (step_shifts h).shuttingDown hs.shuttingDown
  cases step_passes h with
  | aside _ hc hh => exact ⟨hd, hc.trans hs.current, hh.trans hs.holder⟩
  | released _ _ hc hh => exact ⟨hd, hc, hh.trans hs.holder⟩
  | stopping _ _ _ was => rw [hs.current] at was; cases was
  | granted =>
    cases step_turns h with
    | grant k rest =>
      rw [acquire_of_none (s := { s with queue := rest }) hs.current]
      exact closed_proceed (s := { s with queue := rest }) hs.shuttingDown hs.current k
  | stopped _ _ lock => rw [hs.holder] at lock; cases lock
  | expired _ _ lock => rw [hs.holder] at lock; cases lock
  | answered _ lock => rw [hs.holder] at lock; cases lock
  | spawned _ _ _ lock => rw [hs.holder] at lock; cases lock
  | refused _ _ _ lock => rw [hs.holder] at lock; cases lock
  | resumed _ _ _ lock => rw [hs.holder] at lock; cases lock

/-- **A closed server starts nothing and writes nothing.** -/
theorem Closed.refrains (hs : s.Closed) (hf : s.Staffed) (h : s.step clock m = some t) :
    Refrains m t.2 where
  spawns := by
    rcases step_spawns h with ⟨he, -⟩ | ⟨k, command, directory, y, -, hh, -⟩
    · exact he
    · rw [(hs.step h).holder] at hh; cases hh
  written pid := by
    generalize he : Effect.written pid t.2 = texts
    cases he ▸ step_writes hf h pid with
    | nothing => rfl
    | prompt _ _ _ lock => rw [hs.holder] at lock; cases lock
    | mute => rfl
    | command _ _ _ was => rw [hs.current] at was; cases was
  spawned pid := by
    rintro rfl
    obtain ⟨k, x, y, lock, -⟩ := step_spawned h
    rw [hs.holder] at lock
    cases lock

theorem Closed.lifeless (hs : s.Closed) (ho : s.Orderly) (hl : ∀ pid, ¬ s.IsAlive pid)
    (h : s.step clock m = some t) (pid : Nat) : ¬ t.1.IsAlive pid := by
  rintro ⟨x', hx', hr⟩
  rcases step_cases h hx' with ⟨x, hx, rfl⟩ | ⟨-, -, k, x, y, lock, -⟩
  · obtain ⟨p, hp⟩ := ho.process pid x hx
    have hdead : x.isRunning = false := by
      rw [← Bool.not_eq_true]
      exact fun ha => hl pid ⟨x, hx, ha⟩
    rw [not_isRunning_deed s m pid hp hdead] at hr
    cases hr
  · rw [hs.holder] at lock
    cases lock

end Closed

theorem Closed.run : ∀ (moves : List Move) {s : Server} {t : Turn}, s.Closed → s.Staffed →
    s.run clock moves = some t → t.1.Closed ∧ Effect.spawns t.2 = [] ∧
      (∀ pid, Effect.written pid t.2 = []) ∧ ∀ pid, .spawned pid ∉ moves
  | [], _, _, hs, _, h => by
    cases h
    exact ⟨hs, rfl, fun _ => rfl, fun _ => List.not_mem_nil⟩
  | m :: moves, s, t, hs, hf, h => by
    obtain ⟨t₁, t₂, h₁, h₂, rfl⟩ := run_cons.mp h
    have hr := hs.refrains hf h₁
    obtain ⟨hc, hspawns, hwritten, hmoves⟩ := Closed.run moves (hs.step h₁) (staffed_step hf h₁) h₂
    refine ⟨hc, ?_, fun pid => ?_, fun pid hm => ?_⟩
    · rw [Turn.after, Effect.spawns_append, hr.spawns, hspawns]
      rfl
    · rw [Turn.after, Effect.written_append, hr.written pid, hwritten pid]
      rfl
    · rcases List.mem_cons.mp hm with hm | hm
      · exact hr.spawned pid hm.symm
      · exact hmoves pid hm

theorem Closed.lifeless_run {s : Server} (hs : s.Closed) (ho : s.Orderly)
    (hl : ∀ pid, ¬ s.IsAlive pid) {moves : List Move} {t : Turn}
    (h : s.run clock moves = some t) (pid : Nat) : ¬ t.1.IsAlive pid :=
  (run_induction moves (P := fun s => s.Closed ∧ s.Orderly ∧ ∀ pid, ¬ s.IsAlive pid)
    (fun _ _ _ _ hp h => ⟨hp.1.step h, orderly_step hp.2.1 h, hp.1.lifeless hp.2.1 hp.2.2 h⟩)
    ⟨hs, ho, hl⟩ h).2.2 pid

/-! ### On the way -/

/-- **The task that shuts the server down is on its way**: it waits for the lock, or for the end of
the session that it stops, or the server is closed. -/
inductive Leaving (n : Nat) (s : Server) : Prop
  | queued (waits : ⟨n, .shutdown⟩ ∈ s.queue)
  | stopping (pid : Nat) (lock : s.holder = some (⟨n, .shutdown⟩, .stopping pid))
  | closed (closed : s.Closed)

theorem leaving_queued {n : Nat} {s : Server} {m : Move} {t : Turn} (hd : s.shuttingDown = true)
    (hq : ⟨n, .shutdown⟩ ∈ s.queue) (h : s.step clock m = some t) : t.1.Leaving n := by
  rcases (step_shifts h).waits hq with hq' | ⟨rfl, -, rest, queue⟩
  · exact .queued hq'
  -- its turn has come: it stops the current session, or is done at once
  · cases step_turns h with
    | grant k rest' _ queue' =>
      rw [queue] at queue'
      cases queue'
      rcases s.current.eq_none_or_eq_some with hc | ⟨pid, hc⟩
      · rw [acquire_of_none (s := { s with queue := rest }) hc]
        exact .closed (closed_proceed (s := { s with queue := rest }) hd hc _)
      · rw [acquire_of_some (s := { s with queue := rest }) hc, onSession_frame]
        exact .stopping pid rfl

theorem leaving_stopping {n : Nat} {s : Server} {m : Move} {t : Turn} (ho : s.Orderly)
    (hd : s.shuttingDown = true) {pid : Nat} (hh : s.holder = some (⟨n, .shutdown⟩, .stopping pid))
    (h : s.step clock m = some t) : t.1.Leaving n := by
  have hc : s.current = none := ho.lock (by simp [hh])
  have hother : ∀ {k : Task} {g : Stage}, s.holder = some (k, g) → g = .stopping pid := by
    intro k g lock
    rw [hh] at lock
    cases lock
    rfl
  cases step_passes h with
  | aside _ _ holder => exact .stopping pid (holder.trans hh)
  | released _ _ _ holder => exact .stopping pid (holder.trans hh)
  | stopping _ _ lock => rw [hh] at lock; cases lock
  | granted lock => rw [hh] at lock; cases lock
  | stopped => cases step_turns h with | stopped k => exact .closed (closed_proceed hd hc k)
  | expired => cases step_turns h with | expired k => exact .closed (closed_proceed hd hc k)
  | answered _ lock => cases hother lock
  | spawned _ _ _ lock => cases hother lock
  | refused _ _ _ lock => cases hother lock
  | resumed _ _ _ lock => cases hother lock

/-- **One move** keeps the task on its way. -/
theorem Leaving.step {n : Nat} {s : Server} {m : Move} {t : Turn} (hl : s.Leaving n) (ho : s.Orderly)
    (hd : s.shuttingDown = true) (h : s.step clock m = some t) : t.1.Leaving n := by
  cases hl with
  | queued waits => exact leaving_queued hd waits h
  | stopping pid lock => exact leaving_stopping ho hd lock h
  | closed closed => exact .closed (closed.step h)

theorem Leaving.run {n : Nat} {s : Server} (hl : s.Leaving n) (ho : s.Orderly)
    (hd : s.shuttingDown = true) {moves : List Move} {t : Turn} (h : s.run clock moves = some t) :
    t.1.Leaving n :=
  (run_induction moves (P := fun s => s.Leaving n ∧ s.Orderly ∧ s.shuttingDown = true)
    (fun _ _ _ _ hp h => ⟨hp.1.step hp.2.1 hp.2.2 h, orderly_step hp.2.1 h,
      (step_shifts h).shuttingDown hp.2.2⟩) ⟨hl, ho, hd⟩ h).1

/-- When a task that shuts the server down has ended, the server is closed. -/
theorem closed_of_ended {settings : Settings} {workspace : Option String} {directory : String}
    {moves : List Move} {t : Turn} (h : (start settings workspace directory).run clock moves = some t)
    {n : Nat} (hb : (start settings workspace directory).Begins clock n (.request .shutdown) moves)
    (he : t.1.HasEnded n) : t.1.Closed := by
  have hacc : t.1.Accounted := accounted_run (accounted_start settings workspace directory) h
  obtain ⟨before, after, u, rfl, hu, rfl⟩ := hb
  obtain ⟨v, w, hv, hw, ht⟩ := run_middle h hu
  have ho : u.1.Orderly := orderly_run (orderly_start settings workspace directory) hu
  obtain rfl : u.1.request .shutdown = v := Option.some.inj hv
  have hl : (u.1.request .shutdown).1.Leaving u.1.tasks :=
    .queued (List.mem_append_right _ (List.mem_singleton.mpr rfl))
  have hd : (u.1.request .shutdown).1.shuttingDown = true := by simp [request, number]
  have hlater := hl.run (orderly_step ho hv) hd hw
  rw [← ht] at hlater
  cases hlater with
  | queued waits => exact absurd rfl (hacc.not_queued he _ waits)
  | stopping pid lock => exact absurd rfl (hacc.not_holder he lock)
  | closed closed => exact closed

/-- **Shutting down is final.** From the moment at which a task that shuts the server down has ended:
there is no current session and, if no session was ever given up, no process is alive; and whatever
happens later, this remains so, no process is started and nothing is written to any. -/
theorem shutdown_is_final (clock : Nat → Int) (settings : Settings) (workspace : Option String)
    (directory : String) {moves : List Move} {s : Server} {effects : List Effect}
    (h : (start settings workspace directory).run clock moves = some (s, effects)) {n : Nat}
    (hb : (start settings workspace directory).Begins clock n (.request .shutdown) moves)
    (he : s.HasEnded n) {later : List Move} {s' : Server} {more : List Effect}
    (hl : s.run clock later = some (s', more)) :
    s'.current = none ∧ (Move.expired ∉ moves → ∀ pid, ¬ s'.IsAlive pid) ∧
      Effect.spawns more = [] ∧ (∀ pid, .spawned pid ∉ later) ∧
      ∀ pid, Effect.written pid more = [] := by
  have ho₀ := orderly_start settings workspace directory
  have ho : s.Orderly := orderly_run ho₀ h
  have hf : s.Staffed := run_induction moves (fun _ _ _ _ hs h => staffed_step hs h)
    (staffed_start settings workspace directory) h
  have hc : s.Closed := closed_of_ended h hb he
  obtain ⟨hc', hspawns, hwritten, hmoves⟩ := hc.run later hf hl
  refine ⟨hc'.current, fun hm => ?_, hspawns, hmoves, hwritten⟩
  -- a process that is alive would be minded, and a closed server minds none
  have ha : s.AllMinded := allMinded_run ho₀ (fun _ _ hx => by cases hx) hm h
  refine hc.lifeless_run ho (fun pid halive => ?_) hl
  rcases minds_of_isAlive ho ha halive with hcur | ⟨t, hh | ⟨y, hh⟩⟩
  · rw [hc.current] at hcur; cases hcur
  · rw [hc.holder] at hh; cases hh
  · rw [hc.holder] at hh; cases hh

/-- The server is shut down while a process is being started, and a restart waits behind; the task
that shuts down ends once the session of that process has ended. -/
def shutWhileStarting : List Move :=
  [.request (.start (some "ghci")), .grant, .spawned 1, .request .shutdown, .request .restart, .resume,
    .grant, .exit 1 (-9), .close 1 .stdout, .close 1 .stderr, .pump 1 .stdout, .pump 1 .stderr,
    .finish 1, .stopped]

/-- The restart gets its turn, a file is saved, and another start is asked for. -/
def afterShutdown : List Move :=
  [.report 1, .grant, .save "file:///w/A.hs", .request (.start (some "ghci")), .grant]

theorem shutdown_is_final_while_starting : ∃ s effects s' more,
    untouched.run (fun _ => 0) shutWhileStarting = some (s, effects) ∧
      untouched.Begins (fun _ => 0) 1 (.request .shutdown) shutWhileStarting ∧ s.HasEnded 1 ∧
      s.run (fun _ => 0) afterShutdown = some (s', more) ∧ s'.HasEnded 2 ∧ s'.current = none ∧
      (∀ pid, ¬ s'.IsAlive pid) ∧ Effect.spawns more = [] ∧ ∀ pid, Effect.written pid more = [] := by
  have hrun : ((untouched.run (fun _ => 0) shutWhileStarting).bind fun t =>
      (t.1.run (fun _ => 0) afterShutdown).map fun u => (t.1.outcomes, u.1.outcomes)) =
        some ([(0, .done), (1, .done)],
          [(0, .done), (1, .done), (2, .done), (3, .done), (4, .done)]) := by decide +kernel
  obtain ⟨⟨s, effects⟩, h, hb⟩ := Option.bind_eq_some_iff.mp hrun
  obtain ⟨⟨s', more⟩, hl, he⟩ := Option.map_eq_some_iff.mp hb
  obtain ⟨ho, ho'⟩ := Prod.mk.inj he
  have hbegins : untouched.Begins (fun _ => 0) 1 (.request .shutdown) shutWhileStarting := by
    have htasks : (untouched.run (fun _ => 0) (shutWhileStarting.take 3)).map (·.1.tasks) = some 1 := by
      decide +kernel
    obtain ⟨t, ht, hn⟩ := Option.map_eq_some_iff.mp htasks
    exact ⟨_, _, t, rfl, ht, hn⟩
  have hended : s.HasEnded 1 := ⟨.done, by rw [ho]; decide⟩
  obtain ⟨hc, halive, hspawns, -, hwritten⟩ :=
    shutdown_is_final (fun _ => 0) _ _ _ h hbegins hended hl
  exact ⟨s, effects, s', more, h, hbegins, hended, hl, ⟨.done, by rw [ho']; decide⟩, hc,
    halive (by simp [shutWhileStarting]), hspawns, hwritten⟩

end GhciRelay.Server
