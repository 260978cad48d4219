import GhciRelay.Proofs.Lifecycle
import GhciRelay.Proofs.Outward
import GhciRelay.Proofs.Succession

/-!
# The aggregator is tuned to the current session

The sentinel, the root of paths and the current session are set at different moves of a task, with
moves of others in between. Still, whenever there is a current session, the aggregator listens for the
sentinel that was written to that session before anything else, and resolves paths in the directory in
which its process was started (`tuned_to_current_session`).

The statement is about the whole history of a run: what was ever written to a process and which
processes were ever started. `Attuned` ties both to each stage of the task that holds the lock.
-/

namespace GhciRelay

/-! ### Histories -/

namespace Effect

/-- What is written to a process, in order. -/
def written (pid : Nat) (effects : List Effect) : List String :=
  effects.filterMap fun
    | .write q text => if q = pid then some text else none
    | _ => none

/-- The commands that are started, each with its directory, in order. -/
def spawns (effects : List Effect) : List (String × Option String) :=
  effects.filterMap fun
    | .spawn command directory _ => some (command, directory)
    | _ => none

theorem written_append (pid : Nat) (e₁ e₂ : List Effect) :
    written pid (e₁ ++ e₂) = written pid e₁ ++ written pid e₂ :=
  List.filterMap_append ..

theorem spawns_append (e₁ e₂ : List Effect) : spawns (e₁ ++ e₂) = spawns e₁ ++ spawns e₂ :=
  List.filterMap_append ..

theorem written_weighty (pid : Nat) (effects : List Effect) :
    written pid (weighty effects) = written pid effects := by
  unfold written weighty
  rw [List.filterMap_filter]
  refine List.filterMap_congr fun e _ => ?_
  cases e <;> simp [isRoutine]

theorem spawns_weighty (effects : List Effect) : spawns (weighty effects) = spawns effects := by
  unfold spawns weighty
  rw [List.filterMap_filter]
  refine List.filterMap_congr fun e _ => ?_
  cases e <;> simp [isRoutine]

theorem written_write (pid q : Nat) (text : String) :
    written pid [.write q text] = if q = pid then [text] else [] := by
  by_cases hq : q = pid <;> simp [written, hq]

end Effect

namespace Server

variable {clock : Nat → Int}

/-- **What every move keeps of the server and its history** a run keeps. -/
theorem run_history {P : Server → List Effect → Prop}
    (step : ∀ s t m before, P s before → s.step clock m = some t → P t.1 (before ++ t.2)) :
    ∀ (moves : List Move) {s : Server} {t : Turn} {before : List Effect}, P s before →
      s.run clock moves = some t → P t.1 (before ++ t.2)
  | [], _, _, _, hp, h => by
    cases h
    simpa using hp
  | m :: moves, s, t, before, hp, h => by
    obtain ⟨t₁, t₂, hs, hr, rfl⟩ := run_cons.mp h
    have h₂ := run_history step moves (step s t₁ m before hp hs) hr
    rwa [List.append_assoc] at h₂

/-! ### What a move writes and starts -/

/-- **What a move writes to a process**: the prompt, when its task returns from its start and it is
alive, and later commands to the current session. -/
inductive Writes (s : Server) (pid : Nat) : Move → List String → Prop
  | nothing {m : Move} (other : ∀ k y, m = .resume → s.holder ≠ some (k, .resuming pid y)) :
    Writes s pid m []
  | prompt (k : Task) (y : Sentinel) (x : Session) (lock : s.holder = some (k, .resuming pid y))
    (there : s.sessionOf pid = some x) (alive : x.isRunning = true) :
    Writes s pid .resume [Prompt.command y.text ++ "\n"]
  | mute (k : Task) (y : Sentinel) (lock : s.holder = some (k, .resuming pid y))
    (dead : ∀ x, s.sessionOf pid = some x → x.isRunning = false) : Writes s pid .resume []
  | command {m : Move} (hm : m ≠ .resume) (x : Session) (text : String) (was : s.current = some pid)
    (there : s.sessionOf pid = some x) (alive : x.isRunning = true) : Writes s pid m [text]

theorem step_writes {s : Server} {m : Move} {t : Turn} (hf : s.Staffed) (h : s.step clock m = some t)
    (pid : Nat) : Writes s pid m (Effect.written pid t.2) := by
  have hnumber : ∀ q x q', s.sessionOf q = some x → x.pid? = some q' → q' = q := by
    intro q x q' hx hq
    exact Option.some.inj (hq.symm.trans (hf.number q x hx))
  have hout := step_outward h
  rw [← Effect.written_weighty]
  generalize Effect.weighty t.2 = effects at hout ⊢
  cases hout with
  | quiet hm => exact .nothing fun k y he => absurd he hm
  | wrote hm q x q' command was there alive number =>
    obtain rfl := hnumber q x q' there number
    rw [Effect.written_write]
    split
    · next hq => subst hq; exact .command hm x _ was there alive
    · exact .nothing fun k y he => absurd he hm
  | killed => exact .nothing fun k y he => by cases he
  | spawn hm => exact .nothing fun k y he => absurd he hm
  | refused => exact .nothing fun k y he => by cases he
  | installed k q y x q' lock there alive number =>
    obtain rfl := hnumber q x q' there number
    rw [Effect.written_write]
    split
    · next hq => subst hq; exact .prompt k y x lock there alive
    · next hq =>
      refine .nothing fun k' y' _ hl => hq ?_
      rw [lock] at hl
      cases hl
      rfl
  | mute k q y lock dead =>
    by_cases hq : q = pid
    · subst hq
      exact .mute k y lock dead
    · refine .nothing fun k' y' _ hl => hq ?_
      rw [lock] at hl
      cases hl
      rfl
  | crashed => exact .nothing fun k y he => by cases he
  | left => exact .nothing fun k y he => by cases he

/-- **What a move starts**: nothing, and the aggregator stays tuned as it is, or the process of a
session that its task waits for, and the aggregator is tuned to it. -/
theorem step_spawns {s : Server} {m : Move} {t : Turn} (h : s.step clock m = some t) :
    (Effect.spawns t.2 = [] ∧ Kept s t.1) ∨ ∃ k command directory y,
      Effect.spawns t.2 = [(command, directory)] ∧
        t.1.holder = some (k, .spawning (.create command directory) y) ∧
        t.1.tuning = (some y, directory) := by
  have hout := step_outward h
  rw [← Effect.spawns_weighty]
  generalize Effect.weighty t.2 = effects at hout ⊢
  cases hout with
  | quiet _ kept => exact .inl ⟨rfl, kept⟩
  | wrote _ _ _ _ _ _ _ _ _ kept => exact .inl ⟨rfl, kept⟩
  | killed _ _ _ _ _ _ kept => exact .inl ⟨rfl, kept⟩
  | spawn _ k command directory y holder tuning =>
    exact .inr ⟨k, command, directory, y, rfl, holder, tuning⟩
  | refused _ _ kept => exact .inl ⟨rfl, kept⟩
  | installed _ _ _ _ _ _ _ _ _ kept => exact .inl ⟨rfl, kept⟩
  | mute _ _ _ _ _ kept => exact .inl ⟨rfl, kept⟩
  | crashed _ _ _ _ _ _ _ _ kept => exact .inl ⟨rfl, kept⟩
  | left _ _ _ _ kept => exact .inl ⟨rfl, kept⟩

/-! ### Sessions that the aggregator is tuned to -/

/-- **A session suits the history**: the aggregator listens for its sentinel and resolves paths in its
directory, and its process is the last one that was started. -/
structure Suits (s : Server) (x : Session) (y : Sentinel) (effects : List Effect) : Prop where
  tuning : s.tuning = (some y, x.directory)
  last : (Effect.spawns effects).getLast? = some (x.command, x.directory)

theorem launched_deed (s : Server) (m : Move) (pid : Nat) (x : Session) :
    (s.deed m pid x).command = x.command ∧ (s.deed m pid x).directory = x.directory := by
  refine deed_induct (P := fun x' => x'.command = x.command ∧ x'.directory = x.directory) s m pid
    ⟨rfl, rfl⟩ (fun _ _ => ⟨rfl, rfl⟩) (fun _ => ⟨rfl, rfl⟩) (fun _ => ⟨rfl, rfl⟩) (fun c _ => ?_)
    ?_ ?_ ?_
  · unfold Session.pumped
    split <;> exact ⟨rfl, rfl⟩
  · unfold Session.finish
    split <;> exact ⟨rfl, rfl⟩
  · unfold Session.requestStop
    split <;> exact ⟨rfl, rfl⟩
  · unfold Session.attach
    split <;> exact ⟨rfl, rfl⟩

theorem not_isRunning_deed (s : Server) (m : Move) (pid : Nat) {x : Session} {p : Process}
    (hp : x.process = some p) (hx : x.isRunning = false) : (s.deed m pid x).isRunning = false := by
  obtain ⟨p', hp', hl⟩ := (later_deed s m pid x).process p hp
  simp only [Session.isRunning, hp, Process.isAlive, Option.isNone_eq_false_iff] at hx
  obtain ⟨code, hc⟩ := Option.isSome_iff_exists.mp hx
  simp [Session.isRunning, hp', Process.isAlive, hl.exited code hc]

theorem Suits.step {s s' : Server} {x x' : Session} {y : Sentinel} {before effects : List Effect}
    (h : s.Suits x y before) (hs : Effect.spawns effects = []) (hk : Kept s s')
    (hx : x'.command = x.command ∧ x'.directory = x.directory) :
    s'.Suits x' y (before ++ effects) where
  tuning := by rw [hk.tuning, h.tuning, hx.2]
  last := by rw [Effect.spawns_append, hs, List.append_nil, h.last, hx.1, hx.2]

/-- **The history of a server**, by the stage at which the task with the lock is. -/
structure Attuned (s : Server) (effects : List Effect) : Prop where
  spawning : ∀ k x y, s.holder = some (k, .spawning x y) → s.Suits x y effects
  resuming : ∀ k pid y, s.holder = some (k, .resuming pid y) → ∃ x, s.sessionOf pid = some x ∧
    s.Suits x y effects ∧ Effect.written pid effects = []
  current : ∀ pid, s.current = some pid → ∃ x y, s.sessionOf pid = some x ∧ s.Suits x y effects ∧
    ((Effect.written pid effects).head? = some (Prompt.command y.text ++ "\n") ∨
      (Effect.written pid effects = [] ∧ x.isRunning = false))
  unwritten : ∀ pid, s.sessionOf pid = none → Effect.written pid effects = []

theorem attuned_start (settings : Settings) (workspace : Option String) (directory : String) :
    (start settings workspace directory).Attuned [] where
  spawning k x y h := by cases h
  resuming k pid y h := by cases h
  current pid h := by cases h
  unwritten pid _ := rfl

section Step

variable {s : Server} {m : Move} {t : Turn} {before : List Effect}

theorem Attuned.spawning_step (hi : s.Attuned before) (h : s.step clock m = some t) {k : Task}
    {x : Session} {y : Sentinel} (hh : t.1.holder = some (k, .spawning x y)) :
    t.1.Suits x y (before ++ t.2) := by
  rcases step_spawns h with ⟨hs, hk⟩ | ⟨k', command, directory, y', hs, hh', ht⟩
  · exact (hi.spawning k x y (hk.spawning k x y hh)).step hs hk ⟨rfl, rfl⟩
  · rw [hh'] at hh
    cases hh
    refine ⟨ht, ?_⟩
    rw [Effect.spawns_append, hs, List.getLast?_concat]
    rfl

theorem Attuned.resuming_step (ho : s.Orderly) (hf : s.Staffed) (hi : s.Attuned before)
    (h : s.step clock m = some t) {k : Task} {pid : Nat} {y : Sentinel}
    (hh : t.1.holder = some (k, .resuming pid y)) : ∃ x, t.1.sessionOf pid = some x ∧
      t.1.Suits x y (before ++ t.2) ∧ Effect.written pid (before ++ t.2) = [] := by
  obtain ⟨hs, hk⟩ : Effect.spawns t.2 = [] ∧ Kept s t.1 := by
    rcases step_spawns h with hs | ⟨k', command, directory, y', -, hh', -⟩
    · exact hs
    · rw [hh'] at hh; cases hh
  rcases (step_passes h).resuming_origin hh with hh' | ⟨rfl, x, hh'⟩
  · obtain ⟨x, hx, hsuit, hw⟩ := hi.resuming k pid y hh'
    refine ⟨_, step_deed h hx, hsuit.step hs hk (launched_deed s m pid x), ?_⟩
    have hm : m ≠ .resume := by
      rintro rfl
      cases step_passes h with
      | aside hm => cases hm
      | resumed _ _ _ _ _ hn => rw [hn] at hh; cases hh
    have hne : Effect.written pid t.2 = [] := by
      generalize hw' : Effect.written pid t.2 = w
      cases hw' ▸ step_writes hf h pid with
      | nothing => rfl
      | prompt => exact absurd rfl hm
      | mute => rfl
      | command _ _ _ was => rw [ho.lock (by simp [hh'])] at was; cases was
    rw [Effect.written_append, hw, hne, List.append_nil]
  · obtain ⟨k', x', y', hh₀, hn, he, hx, -⟩ := step_spawned h
    rw [hh'] at hh₀
    cases hh₀
    refine ⟨_, hx, (hi.spawning k x y hh').step hs hk ⟨rfl, rfl⟩, ?_⟩
    rw [he, List.append_nil]
    exact hi.unwritten pid hn

theorem Attuned.current_step (ho : s.Orderly) (hf : s.Staffed) (hi : s.Attuned before)
    (h : s.step clock m = some t) {pid : Nat} (hc : t.1.current = some pid) :
    ∃ x y, t.1.sessionOf pid = some x ∧ t.1.Suits x y (before ++ t.2) ∧
      ((Effect.written pid (before ++ t.2)).head? = some (Prompt.command y.text ++ "\n") ∨
        (Effect.written pid (before ++ t.2) = [] ∧ x.isRunning = false)) := by
  -- nothing is being started while there is a current session
  obtain ⟨hs, hk⟩ : Effect.spawns t.2 = [] ∧ Kept s t.1 := by
    rcases step_spawns h with hs | ⟨k, command, directory, y, -, hh, -⟩
    · exact hs
    · rw [(orderly_step ho h).lock (by simp [hh])] at hc; cases hc
  rw [Effect.written_append]
  rcases (step_passes h).current_origin hc with hc' | ⟨rfl, k, y, hh⟩
  · obtain ⟨x, y, hx, hsuit, hw⟩ := hi.current pid hc'
    obtain ⟨p, hp⟩ := ho.process pid x hx
    refine ⟨_, y, step_deed h hx, hsuit.step hs hk (launched_deed s m pid x), ?_⟩
    rcases hw with hw | ⟨hw, hr⟩
    · exact .inl (by rw [List.head?_append, hw]; rfl)
    · refine .inr ⟨?_, not_isRunning_deed s m pid hp hr⟩
      generalize hw' : Effect.written pid t.2 = w
      rw [hw, List.nil_append]
      cases hw' ▸ step_writes hf h pid with
      | nothing => rfl
      | prompt k' y' x' lock => rw [ho.lock (by simp [lock])] at hc'; cases hc'
      | mute => rfl
      | command _ x' _ _ there alive =>
        rw [hx] at there
        cases there
        rw [hr] at alive
        cases alive
  · obtain ⟨x, hx, hsuit, hw⟩ := hi.resuming k pid y hh
    obtain ⟨p, hp⟩ := ho.process pid x hx
    refine ⟨_, y, step_deed h hx, hsuit.step hs hk (launched_deed s .resume pid x), ?_⟩
    rw [hw, List.nil_append]
    generalize hw' : Effect.written pid t.2 = w
    cases hw' ▸ step_writes hf h pid with
    | nothing other => exact absurd hh (other k y rfl)
    | prompt k' y' x' lock => rw [hh] at lock; cases lock; exact .inl rfl
    | mute k' y' lock dead => exact .inr ⟨rfl, not_isRunning_deed s .resume pid hp (dead x hx)⟩
    | command hm => exact absurd rfl hm

theorem Attuned.unwritten_step (hf : s.Staffed) (hi : s.Attuned before) (h : s.step clock m = some t)
    {pid : Nat} (hx' : t.1.sessionOf pid = none) : Effect.written pid (before ++ t.2) = [] := by
  have hx : s.sessionOf pid = none := by
    cases hx : s.sessionOf pid with
    | none => rfl
    | some x => rw [step_deed h hx] at hx'; cases hx'
  rw [Effect.written_append, hi.unwritten pid hx, List.nil_append]
  generalize hw : Effect.written pid t.2 = w
  cases hw ▸ step_writes hf h pid with
  | nothing => rfl
  | prompt _ _ _ _ there => rw [hx] at there; cases there
  | mute => rfl
  | command _ _ _ _ there => rw [hx] at there; cases there

/-- **Every move keeps the aggregator tuned.** -/
theorem attuned_step (ho : s.Orderly) (hf : s.Staffed) (hi : s.Attuned before)
    (h : s.step clock m = some t) : t.1.Attuned (before ++ t.2) where
  spawning _ _ _ hh := hi.spawning_step h hh
  resuming _ _ _ hh := hi.resuming_step ho hf h hh
  current _ hc := hi.current_step ho hf h hc
  unwritten _ hx := hi.unwritten_step hf h hx

end Step

/-- **The aggregator is tuned to the current session.** In every run, whenever there is a current
session: the aggregator resolves paths in the directory of that session, which is the one in which its
process, the last that was started, was started; and the first command that was ever written to the
session, if there was one, installs the sentinel that the aggregator listens for. While the process is
alive there was one. -/
theorem tuned_to_current_session (clock : Nat → Int) (settings : Settings) (workspace : Option String)
    (directory : String) {moves : List Move} {s : Server} {effects : List Effect}
    (h : (start settings workspace directory).run clock moves = some (s, effects)) {pid : Nat}
    (hc : s.current = some pid) : ∃ x y, s.sessionOf pid = some x ∧
      s.aggregator.sentinel = some y ∧ s.aggregator.root = x.directory ∧
      (Effect.spawns effects).getLast? = some (x.command, x.directory) ∧
      (∀ text, (Effect.written pid effects).head? = some text →
        text = Prompt.command y.text ++ "\n") ∧
      (x.isRunning = true →
        (Effect.written pid effects).head? = some (Prompt.command y.text ++ "\n")) := by
  have hi : s.Attuned effects := by
    have hrun := run_history (P := fun s before => s.Orderly ∧ s.Staffed ∧ s.Attuned before)
      (fun s t m before hp h => ⟨orderly_step hp.1 h, staffed_step hp.2.1 h,
        attuned_step hp.1 hp.2.1 hp.2.2 h⟩) moves ⟨orderly_start settings workspace directory,
        staffed_start settings workspace directory, attuned_start settings workspace directory⟩ h
    exact hrun.2.2
  obtain ⟨x, y, hx, ⟨ht, hl⟩, hw⟩ := hi.current pid hc
  refine ⟨x, y, hx, congrArg Prod.fst ht, congrArg Prod.snd ht, hl, fun text hfirst => ?_,
    fun halive => ?_⟩
  · rcases hw with hw | ⟨hw, -⟩
    · rw [hw] at hfirst
      exact (Option.some.inj hfirst).symm
    · rw [hw] at hfirst
      cases hfirst
  · rcases hw with hw | ⟨-, hdead⟩
    · exact hw
    · rw [hdead] at halive
      cases halive

/-- An interpreter is started in one directory and restarted in another; the first restart fails, and
files are saved in between. -/
def moved : List Move :=
  [.request (.start (some "ghci")), .grant, .spawned 1, .resume, .save "file:///w/A.hs",
    .relocate (some "/v"), .save "file:///w/A.hs", .request .restart, .grant, .expired,
    .answer 3 .failed, .refused (.described "No such file or directory"), .request .restart, .grant,
    .answer 4 .failed, .spawned 2, .relocate none, .resume, .save "file:///v/A.hs"]

theorem tuned_to_current_session_moved : ∃ s effects x y,
    untouched.run (fun k => k) moved = some (s, effects) ∧ s.current = some 2 ∧
      s.sessionOf 2 = some x ∧ s.aggregator.sentinel = some y ∧ s.aggregator.root = x.directory ∧
      x.directory = some "/v" ∧
      (Effect.written 2 effects).head? = some (Prompt.command y.text ++ "\n") := by
  have hrun : (untouched.run (fun k => k) moved).map (fun t => (t.1.current,
      (t.1.sessionOf 2).map fun x => (x.directory, x.isRunning))) =
        some (some 2, some (some "/v", true)) := by decide +kernel
  obtain ⟨⟨s, effects⟩, h, hm⟩ := Option.map_eq_some_iff.mp hrun
  obtain ⟨hc, hx₂⟩ := Prod.mk.inj hm
  obtain ⟨x, y, hx, hy, hr, -, -, halive⟩ := tuned_to_current_session (fun k => k) _ _ _ h hc
  rw [hx] at hx₂
  obtain ⟨hd, hrunning⟩ := Prod.mk.inj (Option.some.inj hx₂)
  exact ⟨s, effects, x, y, h, hc, hx, hy, hr, hd, halive hrunning⟩

end Server

end GhciRelay
