import GhciRelay.Proofs.Lock

/-!
# What holds in every state of the server

A server is *orderly* if every session is sound and has a process, if there is no current session
while a task holds the lock, if a session that is not attached yet is the one whose task is about to
attach it, and if the aggregator listens for a sentinel from the first start of a process on. Every
move keeps a server orderly, those included by which a task gives up a session that does not end.
-/

namespace GhciRelay.Server

variable {clock : Nat → Int}

/-! ### What no deed undoes -/

theorem sound_deed (s : Server) (m : Move) (pid : Nat) {x : Session} (h : x.Sound) :
    (s.deed m pid x).Sound :=
  deed_induct s m pid h h.write h.closeChannel h.exit (fun c _ => h.pumped c) h.finish
    (h.requestStop true) h.attach

theorem later_deed (s : Server) (m : Move) (pid : Nat) (x : Session) : x.Later (s.deed m pid x) :=
  deed_induct s m pid (.refl x) (fun c chunk => x.later_mapProcess (·.later_write c chunk))
    (fun c => x.later_mapProcess (·.later_closeChannel c))
    (fun code => x.later_mapProcess (·.later_exit code)) (fun c _ => x.later_pumped c) x.later_finish
    (x.later_requestStop true) x.later_attach

theorem step_later {s : Server} {m : Move} {t : Turn} {pid : Nat} {x : Session}
    (h : s.step clock m = some t) (hx : s.sessionOf pid = some x) :
    ∃ x', t.1.sessionOf pid = some x' ∧ x.Later x' :=
  ⟨_, step_deed h hx, later_deed s m pid x⟩

/-! ### Orderly servers -/

/-- **An orderly server.** -/
structure Orderly (s : Server) : Prop where
  sound : ∀ pid x, s.sessionOf pid = some x → x.Sound
  process : ∀ pid x, s.sessionOf pid = some x → ∃ p, x.process = some p
  attached : ∀ pid x, s.sessionOf pid = some x →
    x.attached = true ∨ ∃ t y, s.holder = some (t, .resuming pid y)
  lock : s.holder ≠ none → s.current = none
  fresh : ∀ t x y, s.holder = some (t, .spawning x y) →
    ∃ command directory, x = .create command directory
  listening : ∀ pid x, s.sessionOf pid = some x → ∃ y, s.aggregator.sentinel = some y
  announced : ∀ t x y, s.holder = some (t, .spawning x y) → s.aggregator.sentinel = some y

theorem orderly_start (settings : Settings) (workspace : Option String) (directory : String) :
    (start settings workspace directory).Orderly where
  sound pid x h := by cases h
  process pid x h := by cases h
  attached pid x h := by cases h
  lock h := absurd rfl h
  fresh t x y h := by cases h
  listening pid x h := by cases h
  announced t x y h := by cases h

/-- **Every move keeps a server orderly.** -/
theorem orderly_step {s : Server} {m : Move} {t : Turn} (hs : s.Orderly)
    (h : s.step clock m = some t) : t.1.Orderly where
  sound pid x' hx' := by
    rcases step_cases h hx' with ⟨x, hx, rfl⟩ | ⟨-, -, k, x, y, hh, rfl⟩
    · exact sound_deed s m pid (hs.sound pid x hx)
    · obtain ⟨command, directory, rfl⟩ := hs.fresh k x y hh
      exact Session.sound_launch command directory pid
  process pid x' hx' := by
    rcases step_cases h hx' with ⟨x, hx, rfl⟩ | ⟨-, -, k, x, y, hh, rfl⟩
    · obtain ⟨p, hp⟩ := hs.process pid x hx
      obtain ⟨p', hp', -⟩ := (later_deed s m pid x).process p hp
      exact ⟨p', hp'⟩
    · exact ⟨_, rfl⟩
  attached pid x' hx' := by
    have hp := step_passes h
    rcases step_cases h hx' with ⟨x, hx, rfl⟩ | ⟨rfl, -⟩
    · rcases hs.attached pid x hx with ha | ⟨k, y, hh⟩
      · exact .inl ((later_deed s m pid x).attached ha)
      -- the task that started the process attaches its session when it returns
      · rcases hp.resuming_cases hh with hr | rfl
        · exact .inr ⟨k, y, hr⟩
        · obtain ⟨p, hxp⟩ := hs.process pid x hx
          refine .inl ?_
          simp only [deed, hh, if_true]
          exact x.attached_attach hxp
    · cases hp with
      | aside hm => cases hm
      | spawned k x y _ _ hh => exact .inr ⟨k, y, hh⟩
  lock := (step_passes h).lock hs.lock
  fresh k x y hh := by
    rcases (step_passes h).spawning_cases hh with ⟨hh', -⟩ | ⟨hc, -⟩
    · exact hs.fresh k x y hh'
    · exact hc
  listening pid x' hx' := by
    have hp := step_passes h
    rcases step_cases h hx' with ⟨x, hx, -⟩ | ⟨-, -, k, x, y, hh, -⟩
    · obtain ⟨y, hy⟩ := hs.listening pid x hx
      exact hp.listening hy
    · exact hp.listening (hs.announced k x y hh)
  announced k x y hh := by
    rcases (step_passes h).spawning_cases hh with ⟨hh', hy⟩ | ⟨-, hy⟩
    · exact hy.trans (hs.announced k x y hh')
    · exact hy

/-- **Every run keeps a server orderly.** -/
theorem orderly_run {s : Server} (hs : s.Orderly) {moves : List Move} {t : Turn}
    (h : s.run clock moves = some t) : t.1.Orderly :=
  run_induction moves (fun _ _ _ _ hs h => orderly_step hs h) hs h

theorem later_run {s : Server} {pid : Nat} {x : Session} (hx : s.sessionOf pid = some x)
    {moves : List Move} {t : Turn} (h : s.run clock moves = some t) :
    ∃ x', t.1.sessionOf pid = some x' ∧ x.Later x' :=
  run_induction moves (P := fun s => ∃ x', s.sessionOf pid = some x' ∧ x.Later x')
    (fun s t m _ hp h => by
      obtain ⟨x₁, hx₁, h₁⟩ := hp
      obtain ⟨x₂, hx₂, h₂⟩ := step_later h hx₁
      exact ⟨x₂, hx₂, h₁.trans h₂⟩) ⟨x, hx, .refl x⟩ h

/-! ### Sessions and their numbers -/

/-- **A server is staffed** if each session has the number of its process, and if there is a session
for the process that is the current one and for the one whose task is about to attach it. -/
structure Staffed (s : Server) : Prop where
  number : ∀ pid x, s.sessionOf pid = some x → x.pid? = some pid
  current : ∀ pid, s.current = some pid → ∃ x, s.sessionOf pid = some x
  resuming : ∀ t pid y, s.holder = some (t, .resuming pid y) → ∃ x, s.sessionOf pid = some x

theorem staffed_start (settings : Settings) (workspace : Option String) (directory : String) :
    (start settings workspace directory).Staffed where
  number pid x h := by cases h
  current pid h := by cases h
  resuming t pid y h := by cases h

theorem pid?_deed (s : Server) (m : Move) (pid : Nat) (x : Session) :
    (s.deed m pid x).pid? = x.pid? := by
  have hmap : ∀ f : Process → Process, (∀ p, (f p).pid = p.pid) → (x.mapProcess f).pid? = x.pid? := by
    intro f hf
    unfold Session.pid? Session.mapProcess
    cases x.process <;> simp [hf]
  have hsame : ∀ x' : Session, x'.process = x.process → x'.pid? = x.pid? := by
    intro x' hp
    rw [Session.pid?, hp]
    rfl
  refine deed_induct (P := fun x' => x'.pid? = x.pid?) s m pid rfl (fun c chunk => hmap _ fun p => ?_)
    (fun c => hmap _ fun p => ?_) (fun code => hmap _ fun p => ?_) (fun c _ => ?_)
    (hsame _ x.process_finish) (hsame _ (x.process_requestStop true)) (hsame _ x.process_attach)
  · cases c <;> rfl
  · cases c <;> rfl
  · unfold Process.exit
    split <;> rfl
  · unfold Session.pumped
    split
    · exact hmap _ fun p => by cases c <;> rfl
    · rfl

theorem staffed_step {s : Server} {m : Move} {t : Turn} (hs : s.Staffed)
    (h : s.step clock m = some t) : t.1.Staffed where
  number pid x' hx' := by
    rcases step_cases h hx' with ⟨x, hx, rfl⟩ | ⟨-, -, k, x, y, -, rfl⟩
    · rw [pid?_deed]
      exact hs.number pid x hx
    · rfl
  current pid hc := by
    rcases (step_passes h).current_origin hc with hc' | ⟨-, k, y, hh⟩
    · obtain ⟨x, hx⟩ := hs.current pid hc'
      exact ⟨_, step_deed h hx⟩
    · obtain ⟨x, hx⟩ := hs.resuming k pid y hh
      exact ⟨_, step_deed h hx⟩
  resuming k pid y hh := by
    rcases (step_passes h).resuming_origin hh with hh' | ⟨rfl, -⟩
    · obtain ⟨x, hx⟩ := hs.resuming k pid y hh'
      exact ⟨_, step_deed h hx⟩
    · obtain ⟨-, x, -, -, -, -, hx, -⟩ := step_spawned h
      exact ⟨_, hx⟩

end GhciRelay.Server
