import GhciRelay.Proofs.Delivery

/-!
# One interpreter after the other

As long as no task gives up a session that does not end, sessions follow one another: at most one
process is alive, and when a process is started every earlier session has exited and its lines were
passed to the listeners (`one_process_at_a_time`). A line that is too long is the one thing that no
listener hears of (`long_line_unheard`).

The invariant behind it ties the lock to the sessions. A session that is not finished is *minded*: it
is the current one, or the one that the task with the lock is stopping or has just started. The
current session and the lock are never both taken, so at most one session is minded; and a task that
waits for the start of a process minds none.
-/

namespace GhciRelay.Server

variable {clock : Nat → Int}

/-! ### Who is minded -/

/-- **A process is minded** if its session is the current one, or if the task that holds the lock
stops it or has just started it. -/
def Minds (s : Server) (pid : Nat) : Prop :=
  s.current = some pid ∨ ∃ t, s.holder = some (t, .stopping pid) ∨
    ∃ y, s.holder = some (t, .resuming pid y)

/-- Every session that is not finished is minded. -/
def AllMinded (s : Server) : Prop :=
  ∀ pid x, s.sessionOf pid = some x → x.finished = none → s.Minds pid

theorem Orderly.minds_unique {s : Server} (hs : s.Orderly) {p q : Nat} (hp : s.Minds p)
    (hq : s.Minds q) : p = q := by
  rcases hp with hp | ⟨t, hp | ⟨y, hp⟩⟩
  · rcases hq with hq | ⟨t, hq | ⟨y, hq⟩⟩
    · rw [hp] at hq; exact Option.some.inj hq
    · rw [hs.lock (by simp [hq])] at hp; cases hp
    · rw [hs.lock (by simp [hq])] at hp; cases hp
  · rcases hq with hq | ⟨t, hq | ⟨y, hq⟩⟩
    · rw [hs.lock (by simp [hp])] at hq; cases hq
    · rw [hp] at hq; cases hq; rfl
    · rw [hp] at hq; cases hq
  · rcases hq with hq | ⟨t, hq | ⟨y, hq⟩⟩
    · rw [hs.lock (by simp [hp])] at hq; cases hq
    · rw [hp] at hq; cases hq
    · rw [hp] at hq; cases hq; rfl

theorem Orderly.not_minds {s : Server} (hs : s.Orderly) {t : Task} {g : Stage}
    (hh : s.holder = some (t, g)) (hg : ∀ pid, g ≠ .stopping pid)
    (hg' : ∀ pid y, g ≠ .resuming pid y) (pid : Nat) : ¬ s.Minds pid := by
  rintro (hc | ⟨k, hk | ⟨y, hk⟩⟩)
  · rw [hs.lock (by simp [hh])] at hc; cases hc
  · rw [hh] at hk; cases hk; exact hg pid rfl
  · rw [hh] at hk; cases hk; exact hg' pid y rfl

/-- Unless its task gives it up, a process that is minded stays so until its session is finished. -/
theorem Orderly.minds_passes {s s' : Server} {m : Move} (hs : s.Orderly) (h : Passes s s' m)
    (hm : m ≠ .expired) {pid : Nat} (hp : s.Minds pid) : s'.Minds pid ∨ s.hasFinished pid = true := by
  -- as at most one process is minded, the one that a case names is ours
  cases h with
  | aside _ hc hh => exact .inl (by rw [Minds, hc, hh]; exact hp)
  | released was finished _ hh =>
    have := hs.minds_unique hp (.inl was)
    subst this
    exact .inr finished
  | stopping t q _ was _ hh =>
    have := hs.minds_unique hp (.inl was)
    subst this
    exact .inl (.inr ⟨t, .inl hh⟩)
  | granted lock was =>
    rcases hp with hc | ⟨t, hh | ⟨y, hh⟩⟩
    · rw [was] at hc; cases hc
    · rw [lock] at hh; cases hh
    · rw [lock] at hh; cases hh
  | stopped t q lock finished =>
    have := hs.minds_unique hp (.inr ⟨t, .inl lock⟩)
    subst this
    exact .inr finished
  | expired => exact absurd rfl hm
  | answered t lock => exact absurd hp (hs.not_minds lock (by simp) (by simp) pid)
  | spawned t x y lock => exact absurd hp (hs.not_minds lock (by simp) (by simp) pid)
  | refused t x y lock => exact absurd hp (hs.not_minds lock (by simp) (by simp) pid)
  | resumed t q y lock hc =>
    have := hs.minds_unique hp (.inr ⟨t, .inr ⟨y, lock⟩⟩)
    subst this
    exact .inl (.inl hc)

theorem allMinded_step {s : Server} {m : Move} {t : Turn} (hs : s.Orderly) (ha : s.AllMinded)
    (hm : m ≠ .expired) (h : s.step clock m = some t) : t.1.AllMinded := by
  intro pid x' hx' hf
  have hp := step_passes h
  rcases step_cases h hx' with ⟨x, hx, rfl⟩ | ⟨rfl, -⟩
  · have hl := (later_deed s m pid x).finished
    have hf₀ : x.finished = none := by
      cases hc : x.finished with
      | none => rfl
      | some code => rw [hl code hc] at hf; cases hf
    rcases hs.minds_passes hp hm (ha pid x hx hf₀) with hq | hq
    · exact hq
    · obtain ⟨y, code, hy, hc⟩ := hasFinished_iff.mp hq
      rw [hx] at hy
      cases hy
      rw [hf₀] at hc
      cases hc
  · cases hp with
    | aside hm => cases hm
    | spawned k x y _ _ hh => exact .inr ⟨k, .inr ⟨y, hh⟩⟩

theorem allMinded_run {s : Server} (hs : s.Orderly) (ha : s.AllMinded) {moves : List Move}
    (hm : Move.expired ∉ moves) {t : Turn} (h : s.run clock moves = some t) : t.1.AllMinded :=
  (run_induction moves (P := fun s => s.Orderly ∧ s.AllMinded)
    (fun _ _ _ hi hp h => ⟨orderly_step hp.1 h,
      allMinded_step hp.1 hp.2 (fun he => hm (he ▸ hi)) h⟩) ⟨hs, ha⟩ h).2

/-! ### Succession -/

/-- The process is alive. -/
def IsAlive (s : Server) (pid : Nat) : Prop := ∃ x, s.sessionOf pid = some x ∧ x.isRunning = true

theorem minds_of_isAlive {s : Server} (hs : s.Orderly) (ha : s.AllMinded) {pid : Nat}
    (h : s.IsAlive pid) : s.Minds pid := by
  obtain ⟨x, hx, hr⟩ := h
  refine ha pid x hx ?_
  cases hf : x.finished with
  | none => rfl
  | some code =>
    obtain ⟨-, p, hp, hc, -⟩ := (hs.sound pid x hx).finished code hf
    simp [Session.isRunning, hp, Process.isAlive, hc] at hr

/-- **A process is spent** if it has exited and both its channels have ended with nothing left in
them. -/
def Spent (s : Server) (pid : Nat) : Prop :=
  ∃ x p code, s.sessionOf pid = some x ∧ x.process = some p ∧ p.returnCode = some code ∧
    ∀ c, p.reader c = ⟨[], true⟩

theorem spent_of_finished {s : Server} (hs : s.Orderly) {pid : Nat} {x : Session} {code : Int}
    (hx : s.sessionOf pid = some x) (hf : x.finished = some code) : s.Spent pid := by
  have hsound := hs.sound pid x hx
  obtain ⟨-, p, hp, hc, hd⟩ := hsound.finished code hf
  exact ⟨x, p, code, hx, hp, hc, fun c => hsound.process p hp c (hd c)⟩

theorem spent_run {s : Server} {pid : Nat} (hs : s.Spent pid) {moves : List Move} {t : Turn}
    (h : s.run clock moves = some t) : t.1.Spent pid := by
  obtain ⟨x, p, code, hx, hp, hc, hq⟩ := hs
  obtain ⟨x', hx', hl⟩ := later_run hx h
  obtain ⟨p', hp', hl'⟩ := hl.process p hp
  exact ⟨x', p', code, hx', hp', hl'.exited code hc, fun c => hl'.quiet c (hq c)⟩

/-- **A process that is spent** has delivered both its channels. -/
theorem delivered_of_spent {s : Server} {moves : List Move} {t : Turn}
    (h : s.run clock moves = some t) {pid : Nat} (hs : t.1.Spent pid) (hn : s.sessionOf pid = none)
    (c : Channel) : s.Delivered clock moves pid c := by
  have ht : t.1.HasTaken pid c (s.arrived clock pid c moves) (s.handedOn clock pid c moves) :=
    hasTaken_run pid c moves h (by rw [HasTaken, hn]; exact ⟨rfl, rfl⟩)
  obtain ⟨x, p, code, hx, hp, -, hq⟩ := hs
  rw [HasTaken, hx] at ht
  obtain ⟨p', hp', ht⟩ := ht
  obtain rfl := Option.some.inj (hp.symm.trans hp')
  rw [hq c] at ht
  exact ⟨passedOn_run pid c moves h, ht.whole.bytes_eq, ht.whole.heard⟩

theorem pump_of_quiet {s : Server} {pid : Nat} {x : Session} {p : Process} {c : Channel}
    (hx : s.sessionOf pid = some x) (hp : x.process = some p) (hq : p.reader c = ⟨[], true⟩) :
    (s.pump pid c).1.aggregator = s.aggregator ∧ (s.pump pid c).2 = [] := by
  have ht : s.taken pid c = [] := by
    simp only [taken, hx, Session.takes, hp]
    rw [hq, LineReader.drain_of_nil _ rfl]
    exact ite_self _
  have hd := pump_delivers s pid c
  rw [ht] at hd
  exact hd

/-- **One interpreter after the other**, in every run without a session that is given up. At most one
process is alive. When a process is started every earlier one has exited with both its channels at
their ends and delivered: all its lines that are not too long have been passed to the listener of their
channel, in order; and whatever happens later, nothing more of it reaches a listener. -/
theorem one_process_at_a_time (clock : Nat → Int) (settings : Settings) (workspace : Option String)
    (directory : String) {moves : List Move} {s : Server} {effects : List Effect}
    (h : (start settings workspace directory).run clock moves = some (s, effects))
    (hm : Move.expired ∉ moves) :
    (∀ p q, s.IsAlive p → s.IsAlive q → p = q) ∧
      ∀ pid s' es, s.step clock (.spawned pid) = some (s', es) → ∀ p ∈ s.sessions.keys,
        s.Spent p ∧ (∀ c, (start settings workspace directory).Delivered clock moves p c) ∧
        ∀ later s'' more, s'.run clock later = some (s'', more) → ∀ c,
          (s''.pump p c).1.aggregator = s''.aggregator ∧ (s''.pump p c).2 = [] := by
  have hs : s.Orderly := orderly_run (orderly_start settings workspace directory) h
  have ha : s.AllMinded := by
    refine allMinded_run (orderly_start settings workspace directory) ?_ hm h
    intro pid x hx
    cases hx
  refine ⟨fun p q hp hq => hs.minds_unique (minds_of_isAlive hs ha hp) (minds_of_isAlive hs ha hq),
    fun pid s' es hsp p hp => ?_⟩
  -- The task that waits for the start minds no process, so every session is finished.
  have hspent : s.Spent p := by
    obtain ⟨k, y, z, hh, -⟩ := step_spawned hsp
    obtain ⟨x, hx⟩ := mem_keys_iff.mp hp
    cases hf : x.finished with
    | some code => exact spent_of_finished hs hx hf
    | none => exact absurd (ha p x hx hf) (hs.not_minds hh (by simp) (by simp) p)
  refine ⟨hspent, delivered_of_spent h hspent rfl, fun later s'' more hl c => ?_⟩
  have hrun : s.run clock (.spawned pid :: later) = some (s'', es ++ more) :=
    run_cons.mpr ⟨_, _, hsp, hl, rfl⟩
  obtain ⟨x, q, code, hx, hq, -, hr⟩ := spent_run hspent hrun
  exact pump_of_quiet hx hq (hr c)

/-- A server with plain settings to which nothing has happened. -/
def untouched : Server := start ⟨"ghci", .info, "ghci-bridge", "GHCi"⟩ (some "/w") "/"

/-- An interpreter is started and writes to both its channels; then it is restarted, up to the start
of the second process. -/
def handover : List Move :=
  [.request (.start (some "ghci")), .grant, .spawned 1, .resume, .write 1 .stdout [104, 105, 10],
    .pump 1 .stdout, .write 1 .stderr [33, 10], .request .restart, .grant, .exit 1 (-9),
    .close 1 .stdout, .close 1 .stderr, .pump 1 .stderr, .pump 1 .stdout, .finish 1, .stopped,
    .answer 1 .failed]

theorem one_process_at_a_time_handover : ∃ s effects s' more,
    untouched.run (fun _ => 0) handover = some (s, effects) ∧ Move.expired ∉ handover ∧
      s.step (fun _ => 0) (.spawned 2) = some (s', more) ∧ 1 ∈ s.sessions.keys ∧
      (∀ p q, s.IsAlive p → s.IsAlive q → p = q) ∧ s.Spent 1 ∧
      PassedOn (fun _ => 0) 1 .stdout untouched handover [.line [104, 105, 10]] ∧
      PassedOn (fun _ => 0) 1 .stderr untouched handover [.line [33, 10]] ∧
      untouched.Delivered (fun _ => 0) handover 1 .stdout := by
  have hrun : ((untouched.run (fun _ => 0) handover).bind fun t =>
      t.1.step (fun _ => 0) (.spawned 2)).isSome = true := by decide +kernel
  obtain ⟨⟨s', more⟩, hb⟩ := Option.isSome_iff_exists.mp hrun
  obtain ⟨⟨s, effects⟩, h, hs⟩ := Option.bind_eq_some_iff.mp hb
  have hkeys : (untouched.run (fun _ => 0) handover).map (fun t => t.1.sessions.keys) = some [1] := by
    decide +kernel
  have hk : 1 ∈ s.sessions.keys := by
    rw [h, Option.map_some, Option.some.injEq] at hkeys
    simp [hkeys]
  have hm : Move.expired ∉ handover := by simp [handover]
  obtain ⟨hone, hnext⟩ := one_process_at_a_time (fun _ => 0) _ _ _ h hm
  obtain ⟨hspent, hall, -⟩ := hnext 2 s' more hs 1 hk
  have hout : untouched.handedOn (fun _ => 0) 1 .stdout handover = [.line [104, 105, 10]] := by
    decide +kernel
  have herr : untouched.handedOn (fun _ => 0) 1 .stderr handover = [.line [33, 10]] := by
    decide +kernel
  exact ⟨s, effects, s', more, h, hm, hs, hk, hone, hspent, hout ▸ (hall .stdout).passed,
    herr ▸ (hall .stderr).passed, hall .stdout⟩

/-! ### A line that is too long -/

/-- A line that is too long comes and goes, and leaves a warning and nothing else. -/
theorem run_tooLong {s : Server} {pid : Nat} {v : Supervised} {p : Process} {c : Channel}
    (hv : s.sessions.get? pid = some v) (ha : v.session.attached = true)
    (hp : v.session.process = some p) (hr : p.reader c = .fresh) (hd : p.isDone c = false)
    {bs : List UInt8} (hn : 10 ∉ bs) (hl : Session.lineLimit < bs.length) :
    let moves := [.write pid c (bs ++ [10]), .pump pid c]
    s.run clock moves = some (s, [.note (LineReader.tooLongNote c)]) ∧
      s.arrived clock pid c moves = bs ++ [10] ∧
      s.handedOn clock pid c moves = [.tooLong (bs ++ [10])] := by
  have hdrain : (((p.write c (bs ++ [10])).reader c).drain Session.lineLimit) =
      ([.tooLong (bs ++ [10])], .fresh) := by
    rw [p.reader_write, if_pos rfl, hr]
    exact LineReader.drain_tooLong _ hn hl false
  have hback : (p.write c (bs ++ [10])).pumped c = p := by
    rw [Process.pumped, hdrain]
    cases c <;> cases p <;> simp_all [Process.setReader, Process.write, Process.reader,
      Process.isDone, Session.markDone, LineReader.fresh]
  obtain ⟨⟨command, directory, process, attached, stopRequested, finished⟩, reported⟩ := v
  cases ha
  cases hp
  -- in between the line is in the buffer
  let between : Server := { s with
    sessions := s.sessions.insert pid ⟨⟨command, directory, some (p.write c (bs ++ [10])), true,
      stopRequested, finished⟩, reported⟩ }
  have hwrite : s.step clock (.write pid c (bs ++ [10])) = some (between, []) := by
    simp [step, onProcess, onSession, hv, Session.mapProcess, between]
  have hpump : between.step clock (.pump pid c) = some (s, [.note (LineReader.tooLongNote c)]) := by
    simp only [between, step, pump, OrderedMap.get?_insert_self, Session.pump_eq, Session.takes,
      Session.pumped, Session.mapProcess, if_true, Option.map_some, hback, hdrain,
      OrderedMap.insert_insert]
    rw [OrderedMap.insert_of_get? hv]
    rfl
  have hopen : s.isOpen pid c = true := by
    simp [isOpen, sessionOf, hv, Session.isOpen, hr, LineReader.fresh]
  have htaken : between.taken pid c = [.tooLong (bs ++ [10])] := by
    simp [between, taken, sessionOf, OrderedMap.get?_insert_self, Session.takes, hdrain]
  refine ⟨run_cons.mpr ⟨_, _, hwrite, run_cons.mpr ⟨_, _, hpump, rfl, rfl⟩, rfl⟩, ?_, ?_⟩
  · rw [arrived_cons hwrite, arrived_cons hpump]
    simp [arrival, arrived, hopen]
  · rw [handedOn_cons hwrite, handedOn_cons hpump]
    simp [delivery, handedOn, htaken]

/-- An interpreter is started. -/
def opening : List Move := [.request (.start (some "ghci")), .grant, .spawned 1, .resume]

/-- The interpreter is restarted, up to the start of the second process. -/
def replacement : List Move :=
  [.request .restart, .grant, .exit 1 (-9), .close 1 .stdout, .close 1 .stderr, .pump 1 .stderr,
    .pump 1 .stdout, .finish 1, .stopped, .answer 1 .failed]

/-- The session of an interpreter that was just attached. -/
def idleSession : Supervised := ⟨⟨"ghci", some "/w", some (.fresh 1), true, false, none⟩, false⟩

theorem run_around : ∃ a before s later, untouched.run (fun _ => 0) opening = some (a, before) ∧
    a.run (fun _ => 0) replacement = some (s, later) ∧ a.sessions.get? 1 = some idleSession ∧
    a.arrived (fun _ => 0) 1 .stdout replacement = [] ∧
    a.handedOn (fun _ => 0) 1 .stdout replacement = [] ∧
    1 ∈ s.sessions.keys ∧ (s.step (fun _ => 0) (.spawned 2)).isSome = true := by
  have hfacts : ((untouched.run (fun _ => 0) opening).bind fun t =>
      (t.1.run (fun _ => 0) replacement).map fun u =>
        (t.1.sessions.get? 1, t.1.arrived (fun _ => 0) 1 .stdout replacement,
          t.1.handedOn (fun _ => 0) 1 .stdout replacement, u.1.sessions.keys,
          (u.1.step (fun _ => 0) (.spawned 2)).isSome)) =
      some (some idleSession, [], [], [1], true) := by decide +kernel
  obtain ⟨⟨a, before⟩, ha, hfacts⟩ := Option.bind_eq_some_iff.mp hfacts
  obtain ⟨⟨s, later⟩, hs, hfacts⟩ := Option.map_eq_some_iff.mp hfacts
  simp only [Prod.mk.injEq] at hfacts
  obtain ⟨hget, harrived, hhanded, hkeys, hnext⟩ := hfacts
  exact ⟨a, before, s, later, ha, hs, hget, harrived, hhanded, by simp [hkeys], hnext⟩

theorem tooLong_unheard {bs : List UInt8} (hn : 10 ∉ bs) (hl : Session.lineLimit < bs.length) :
    let moves := opening ++ ([.write 1 .stdout (bs ++ [10]), .pump 1 .stdout] ++ replacement)
    ∃ s before later,
      untouched.run (fun _ => 0) moves =
        some (s, before ++ (.note (LineReader.tooLongNote .stdout) :: later)) ∧
      untouched.run (fun _ => 0) (opening ++ replacement) = some (s, before ++ later) ∧
      Move.expired ∉ moves ∧ (s.step (fun _ => 0) (.spawned 2)).isSome = true ∧
      1 ∈ s.sessions.keys ∧
      LineReader.lines (untouched.arrived (fun _ => 0) 1 .stdout moves) = [bs ++ [10]] ∧
      (untouched.handedOn (fun _ => 0) 1 .stdout moves).filterMap Piece.line? = [] := by
  intro moves
  obtain ⟨a, before, s, later, ha, hs, hget, harrived, hhanded, hkeys, hnext⟩ := run_around
  obtain ⟨hlong, hsaid, htaken⟩ := run_tooLong hget rfl rfl (c := .stdout) rfl rfl hn hl
  have hopening : untouched.arrived (fun _ => 0) 1 .stdout opening = [] ∧
      untouched.handedOn (fun _ => 0) 1 .stdout opening = [] := by decide +kernel
  refine ⟨s, before, later, ?_, ?_, ?_, hnext, hkeys, ?_, ?_⟩
  · exact run_append.mpr ⟨_, _, ha, run_append.mpr ⟨_, _, hlong, hs, rfl⟩, rfl⟩
  · exact run_append.mpr ⟨_, _, ha, hs, rfl⟩
  · simp [moves, opening, replacement]
  · rw [(followed_append ha ..).1, (followed_append hlong ..).1, hopening.1, hsaid, harrived,
      List.append_nil]
    exact LineReader.lines_lineFeed hn []
  · rw [(followed_append ha ..).2, (followed_append hlong ..).2, hopening.2, htaken, hhanded]
    rfl

/-- **A line can go unheard**: the process writes one line of 1048577 bytes, and when the next process
is started no line was passed on. All that is left of it is a warning; the server is where it would be
if nothing had been written. -/
theorem long_line_unheard :
    let line : List UInt8 := List.replicate 1048577 120 ++ [10]
    let moves := opening ++ ([.write 1 .stdout line, .pump 1 .stdout] ++ replacement)
    ∃ s before later,
      untouched.run (fun _ => 0) moves =
        some (s, before ++ (.note (LineReader.tooLongNote .stdout) :: later)) ∧
      untouched.run (fun _ => 0) (opening ++ replacement) = some (s, before ++ later) ∧
      Move.expired ∉ moves ∧ (s.step (fun _ => 0) (.spawned 2)).isSome = true ∧
      1 ∈ s.sessions.keys ∧
      LineReader.lines (untouched.arrived (fun _ => 0) 1 .stdout moves) = [line] ∧
      (untouched.handedOn (fun _ => 0) 1 .stdout moves).filterMap Piece.line? = [] :=
  tooLong_unheard (fun h => absurd (List.eq_of_mem_replicate h) (by decide))
    (by rw [List.length_replicate]; decide)

end GhciRelay.Server
