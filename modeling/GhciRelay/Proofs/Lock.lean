import GhciRelay.Proofs.ServerStep

/-!
# The lock

How moves change the current session and the task that holds the lock. The constructors of `Passes`
are the life of such a task, from the grant of the lock to its release; `step_passes` says that every
move is one of them, or is made aside.
-/

namespace GhciRelay.Server

variable {clock : Nat → Int}

/-! ### The life of a task -/

/-- The move takes a task from one stage to the next, whenever it is possible. -/
def advances : Move → Bool
  | .grant | .stopped | .expired | .spawned _ | .refused _ | .resume => true
  | _ => false

/-- The move comes from a process: it writes or exits, one of its outputs ends or is pumped, or its
session is finished. -/
def comesFrom (pid : Nat) : Move → Bool
  | .write q _ _ | .close q _ | .pump q _ | .exit q _ | .finish q => q = pid
  | _ => false

/-- **How a move changes** the current session and the task that holds the lock. -/
inductive Passes (s s' : Server) : Move → Prop
  | aside {m : Move} (hm : advances m = false) (current : s'.current = s.current)
    (holder : s'.holder = s.holder) (sentinel : s'.aggregator.sentinel = s.aggregator.sentinel) :
    Passes s s' m
  | released {pid : Nat} (was : s.current = some pid) (finished : s.hasFinished pid = true)
    (current : s'.current = none) (holder : s'.holder = s.holder)
    (sentinel : s'.aggregator.sentinel = s.aggregator.sentinel) : Passes s s' (.report pid)
  | stopping (t : Task) (pid : Nat) (lock : s.holder = none) (was : s.current = some pid)
    (current : s'.current = none) (holder : s'.holder = some (t, .stopping pid))
    (sentinel : s'.aggregator.sentinel = s.aggregator.sentinel) : Passes s s' .grant
  | granted (lock : s.holder = none) (was : s.current = none) (current : s'.current = none)
    (free : Free s.aggregator.sentinel s') : Passes s s' .grant
  | stopped (t : Task) (pid : Nat) (lock : s.holder = some (t, .stopping pid))
    (finished : s.hasFinished pid = true) (current : s'.current = s.current)
    (free : Free s.aggregator.sentinel s') : Passes s s' .stopped
  | expired (t : Task) (pid : Nat) (lock : s.holder = some (t, .stopping pid))
    (current : s'.current = s.current) (free : Free s.aggregator.sentinel s') : Passes s s' .expired
  | answered (t : Task) {n : Nat} {reply : LaunchCommand.Reply} (lock : s.holder = some (t, .asking))
    (current : s'.current = s.current) (free : Free s.aggregator.sentinel s') :
    Passes s s' (.answer n reply)
  | spawned (t : Task) {pid : Nat} (x : Session) (y : Sentinel)
    (lock : s.holder = some (t, .spawning x y)) (current : s'.current = s.current)
    (holder : s'.holder = some (t, .resuming pid y))
    (sentinel : s'.aggregator.sentinel = s.aggregator.sentinel) : Passes s s' (.spawned pid)
  | refused (t : Task) (x : Session) (y : Sentinel) {e : OsError}
    (lock : s.holder = some (t, .spawning x y)) (current : s'.current = s.current)
    (holder : s'.holder = none) (sentinel : s'.aggregator.sentinel = s.aggregator.sentinel) :
    Passes s s' (.refused e)
  | resumed (t : Task) (pid : Nat) (y : Sentinel) (lock : s.holder = some (t, .resuming pid y))
    (current : s'.current = some pid) (holder : s'.holder = none)
    (sentinel : s'.aggregator.sentinel = s.aggregator.sentinel) : Passes s s' .resume

theorem Aside.passes {s s' : Server} {m : Move} (h : Aside s s') (hm : advances m = false) :
    Passes s s' m :=
  .aside hm h.current h.holder h.sentinel

theorem passes_onSession (s : Server) (q : Nat) (f : Session → Session × List Effect) {m : Move}
    (hm : advances m = false) : Passes s (s.onSession q f).1 m := by
  rw [onSession_frame]
  exact .aside hm rfl rfl rfl

theorem passes_report {s : Server} {pid : Nat} {t : Turn} (h : s.report pid = some t) :
    Passes s t.1 (.report pid) := by
  rcases report_cases h with ⟨v, code, hv, hf, ht | ht⟩
  · rw [ht]
    exact .aside rfl rfl rfl rfl
  · rw [ht]
    by_cases hc : s.current = some pid
    · have hr : (s.markReported pid v).release pid = { s.markReported pid v with current := none } :=
        if_pos hc
      rw [hr]
      refine .released hc (hasFinished_iff.mpr ⟨v.session, code, ?_, hf⟩) rfl rfl rfl
      rw [sessionOf, hv]
      rfl
    · have hr : (s.markReported pid v).release pid = s.markReported pid v := if_neg hc
      rw [hr]
      exact .aside rfl rfl rfl rfl

theorem passes_acquire {s : Server} {t : Task} {rest : List Task} (hh : s.holder = none) :
    Passes s ({ s with queue := rest }.acquire clock t).1 .grant := by
  rcases s.current.eq_none_or_eq_some with hc | ⟨q, hc⟩
  · have hp := proceeds_proceed clock { s with queue := rest } t
    rw [acquire_of_none (s := { s with queue := rest }) hc]
    exact .granted hh hc (hp.current.trans hc) hp.free
  · rw [acquire_of_some (s := { s with queue := rest }) hc, onSession_frame]
    exact .stopping t q hh hc rfl rfl rfl

theorem passes_resumed {s : Server} {t : Task} {pid : Nat} {y : Sentinel}
    (hh : s.holder = some (t, .resuming pid y)) : Passes s (s.resumed t pid y).1 .resume := by
  unfold resumed
  dsimp only
  rw [onSession_frame]
  split
  · exact .resumed t pid y hh rfl rfl rfl
  · next s'' more h =>
    obtain rfl := send_frame h
    exact .resumed t pid y hh rfl rfl rfl

/-- **The current session and the lock** change as a task goes through its stages. -/
theorem step_passes {s : Server} {m : Move} {t : Turn} (h : s.step clock m = some t) :
    Passes s t.1 m := by
  cases step_turns h with
  | request job => exact .aside rfl rfl rfl rfl
  | inquire => exact .aside rfl rfl rfl rfl
  | save uri => exact (aside_saved s uri).passes rfl
  | send command => exact (aside_sendTask s command).passes rfl
  | relocate root => exact .aside rfl rfl rfl rfl
  | grant k rest lock => exact passes_acquire lock
  | stopped k pid lock finished =>
    have hp := proceeds_proceed clock s k
    exact .stopped k pid lock finished hp.current hp.free
  | expired k pid lock =>
    have hp := proceeds_proceed clock s k
    exact .expired k pid lock hp.current hp.free
  | answer k reply lock =>
    have hp := proceeds_answered clock s k reply
    exact .answered k lock hp.current hp.free
  | inquiry n reply => exact (aside_answerInquiry s n reply).passes rfl
  | spawned k x y pid lock => exact .spawned k x y lock rfl rfl rfl
  | refused k x y e lock => exact .refused k x y lock rfl rfl rfl
  | resume k pid y lock => exact passes_resumed lock
  | write pid c chunk => exact passes_onSession s pid _ rfl
  | close pid c => exact passes_onSession s pid _ rfl
  | exit pid code => exact passes_onSession s pid _ rfl
  | pump pid c =>
    refine .aside rfl ?_ ?_ (by rw [aggregator_pump])
    · rw [pump_frame]
    · rw [pump_frame]
  | finish pid => exact passes_onSession s pid _ rfl
  | report pid t reported => exact passes_report reported

/-! ### What follows -/

theorem Free.listening {before : Option Sentinel} {s : Server} (h : Free before s) {y : Sentinel}
    (hy : before = some y) : ∃ y', s.aggregator.sentinel = some y' := by
  rcases h with ⟨-, h⟩ | ⟨t, -, h⟩ | ⟨t, c, d, z, -, h⟩
  · exact ⟨y, h.trans hy⟩
  · exact ⟨y, h.trans hy⟩
  · exact ⟨z, h⟩

theorem Passes.listening {s s' : Server} {m : Move} (h : Passes s s' m) {y : Sentinel}
    (hy : s.aggregator.sentinel = some y) : ∃ y', s'.aggregator.sentinel = some y' := by
  cases h with
  | aside _ _ _ h => exact ⟨y, h.trans hy⟩
  | released _ _ _ _ h => exact ⟨y, h.trans hy⟩
  | stopping _ _ _ _ _ _ h => exact ⟨y, h.trans hy⟩
  | granted _ _ _ free => exact free.listening hy
  | stopped _ _ _ _ _ free => exact free.listening hy
  | expired _ _ _ _ free => exact free.listening hy
  | answered _ _ _ free => exact free.listening hy
  | spawned _ _ _ _ _ _ h => exact ⟨y, h.trans hy⟩
  | refused _ _ _ _ _ _ h => exact ⟨y, h.trans hy⟩
  | resumed _ _ _ _ _ _ h => exact ⟨y, h.trans hy⟩

theorem Passes.lock {s s' : Server} {m : Move} (h : Passes s s' m)
    (hl : s.holder ≠ none → s.current = none) (hh : s'.holder ≠ none) : s'.current = none := by
  cases h with
  | aside _ hc h => rw [h] at hh; exact hc.trans (hl hh)
  | released _ _ hc => exact hc
  | stopping _ _ _ _ hc => exact hc
  | granted _ _ hc => exact hc
  | stopped _ _ lock _ hc => exact hc.trans (hl (by simp [lock]))
  | expired _ _ lock hc => exact hc.trans (hl (by simp [lock]))
  | answered _ lock hc => exact hc.trans (hl (by simp [lock]))
  | spawned _ _ _ lock hc => exact hc.trans (hl (by simp [lock]))
  | refused _ _ _ _ _ h => exact absurd h hh
  | resumed _ _ _ _ _ h => exact absurd h hh

theorem Free.spawning_cases {before : Option Sentinel} {s : Server} (h : Free before s) {t : Task}
    {x : Session} {y : Sentinel} (hh : s.holder = some (t, .spawning x y)) :
    (∃ command directory, x = .create command directory) ∧ s.aggregator.sentinel = some y := by
  rcases h with ⟨h, -⟩ | ⟨t', h, -⟩ | ⟨t', c, d, z, h, hz⟩
  · rw [h] at hh; cases hh
  · rw [h] at hh; cases hh
  · rw [h] at hh; cases hh; exact ⟨⟨c, d, rfl⟩, hz⟩

/-- A task that waits for the start of a process has just prepared its session, or waits still. -/
theorem Passes.spawning_cases {s s' : Server} {m : Move} (h : Passes s s' m) {t : Task} {x : Session}
    {y : Sentinel} (hh : s'.holder = some (t, .spawning x y)) :
    (s.holder = some (t, .spawning x y) ∧ s'.aggregator.sentinel = s.aggregator.sentinel) ∨
      ((∃ command directory, x = .create command directory) ∧ s'.aggregator.sentinel = some y) := by
  cases h with
  | aside _ _ h hy => exact .inl ⟨h.symm.trans hh, hy⟩
  | released _ _ _ h hy => exact .inl ⟨h.symm.trans hh, hy⟩
  | stopping _ _ _ _ _ h => rw [h] at hh; cases hh
  | granted _ _ _ free => exact .inr (free.spawning_cases hh)
  | stopped _ _ _ _ _ free => exact .inr (free.spawning_cases hh)
  | expired _ _ _ _ free => exact .inr (free.spawning_cases hh)
  | answered _ _ _ free => exact .inr (free.spawning_cases hh)
  | spawned _ _ _ _ _ h => rw [h] at hh; cases hh
  | refused _ _ _ _ _ h => rw [h] at hh; cases hh
  | resumed _ _ _ _ _ h => rw [h] at hh; cases hh

theorem Passes.resuming_cases {s s' : Server} {m : Move} (h : Passes s s' m) {t : Task} {pid : Nat}
    {y : Sentinel} (hh : s.holder = some (t, .resuming pid y)) :
    s'.holder = some (t, .resuming pid y) ∨ m = .resume := by
  cases h with
  | aside _ _ h => exact .inl (h.trans hh)
  | released _ _ _ h => exact .inl (h.trans hh)
  | stopping _ _ lock => rw [lock] at hh; cases hh
  | granted lock => rw [lock] at hh; cases hh
  | stopped _ _ lock => rw [lock] at hh; cases hh
  | expired _ _ lock => rw [lock] at hh; cases hh
  | answered _ lock => rw [lock] at hh; cases hh
  | spawned _ _ _ lock => rw [lock] at hh; cases hh
  | refused _ _ _ lock => rw [lock] at hh; cases hh
  | resumed => exact .inr rfl

/-- A task that is about to return from the start of a process waited so before, or the process has
just been started. -/
theorem Passes.resuming_origin {s s' : Server} {m : Move} (h : Passes s s' m) {t : Task} {pid : Nat}
    {y : Sentinel} (hh : s'.holder = some (t, .resuming pid y)) :
    s.holder = some (t, .resuming pid y) ∨
      (m = .spawned pid ∧ ∃ x, s.holder = some (t, .spawning x y)) := by
  have hfree : ¬ Free s.aggregator.sentinel s' := by
    rintro (⟨h, -⟩ | ⟨k, h, -⟩ | ⟨k, c, d, z, h, -⟩)
    all_goals rw [h] at hh; cases hh
  cases h with
  | aside _ _ h => exact .inl (h.symm.trans hh)
  | released _ _ _ h => exact .inl (h.symm.trans hh)
  | stopping _ _ _ _ _ h => rw [h] at hh; cases hh
  | granted _ _ _ free => exact absurd free hfree
  | stopped _ _ _ _ _ free => exact absurd free hfree
  | expired _ _ _ _ free => exact absurd free hfree
  | answered _ _ _ free => exact absurd free hfree
  | spawned k x z lock _ h => rw [h] at hh; cases hh; exact .inr ⟨rfl, x, lock⟩
  | refused _ _ _ _ _ h => rw [h] at hh; cases hh
  | resumed _ _ _ _ _ h => rw [h] at hh; cases hh

/-- A session becomes the current one when its task returns from the start of its process. -/
theorem Passes.current_origin {s s' : Server} {m : Move} (h : Passes s s' m) {pid : Nat}
    (hc : s'.current = some pid) :
    s.current = some pid ∨ (m = .resume ∧ ∃ t y, s.holder = some (t, .resuming pid y)) := by
  cases h with
  | aside _ h => exact .inl (h.symm.trans hc)
  | released _ _ h => rw [h] at hc; cases hc
  | stopping _ _ _ _ h => rw [h] at hc; cases hc
  | granted _ _ h => rw [h] at hc; cases hc
  | stopped _ _ _ _ h => exact .inl (h.symm.trans hc)
  | expired _ _ _ h => exact .inl (h.symm.trans hc)
  | answered _ _ h => exact .inl (h.symm.trans hc)
  | spawned _ _ _ _ h => exact .inl (h.symm.trans hc)
  | refused _ _ _ _ h => exact .inl (h.symm.trans hc)
  | resumed t q y lock h => rw [h] at hc; cases hc; exact .inr ⟨rfl, t, y, lock⟩

end GhciRelay.Server
