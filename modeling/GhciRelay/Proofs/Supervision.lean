import GhciRelay.Proofs.Lifecycle
import GhciRelay.Proofs.Outward
import GhciRelay.Proofs.Succession

/-!
# Reporting the end of a session

The end of a session is reported outside the lock, while tasks stop one session and start another.
Still only the current session is ever reported as lost (`only_current_session_reported`): an error is
shown for a session exactly if it ended badly and nobody had asked it to stop; it is the current one
at that moment, and afterwards there is none.

Behind it stands that every session that is attached, was not asked to stop and whose end was not
reported is the current one (`Supervises`): a task that takes the current session away asks it to stop
in the same move.
-/

namespace GhciRelay

/-- The move reports the end of the session of a process. -/
def Move.reports (pid : Nat) : Move → Bool
  | .report q => q = pid
  | _ => false

namespace Server

variable {clock : Nat → Int}

/-! ### Reported once -/

/-- Whether the end of the session of a process was reported. -/
def reportedOf (s : Server) (pid : Nat) : Option Bool := (s.sessions.get? pid).map (·.reported)

theorem reportedOf_of_sessions {s s' : Server} (h : s'.sessions = s.sessions) (pid : Nat) :
    s'.reportedOf pid = s.reportedOf pid := by
  rw [reportedOf, h]
  rfl

theorem reportedOf_insert {s s' : Server} {q : Nat} {v : Supervised} {x : Session}
    (hv : s.sessions.get? q = some v) (hs : s'.sessions = s.sessions.insert q { v with session := x })
    (pid : Nat) : s'.reportedOf pid = s.reportedOf pid := by
  unfold reportedOf
  rw [hs, OrderedMap.get?_insert]
  by_cases hq : pid = q
  · subst hq
    simp [hv]
  · rw [if_neg hq]

theorem reportedOf_onSession (s : Server) (q pid : Nat) (f : Session → Session × List Effect) :
    (s.onSession q f).1.reportedOf pid = s.reportedOf pid := by
  unfold onSession
  split
  · rfl
  · next v hv => exact reportedOf_insert hv rfl pid

theorem reportedOf_pump (s : Server) (q pid : Nat) (c : Channel) :
    (s.pump q c).1.reportedOf pid = s.reportedOf pid := by
  unfold pump
  split
  · rfl
  · next v hv => exact reportedOf_insert hv rfl pid

theorem reportedOf_release (s : Server) (q pid : Nat) :
    (s.release q).reportedOf pid = s.reportedOf pid := by
  unfold release
  split <;> rfl

theorem reportedOf_markReported (s : Server) (q pid : Nat) (v : Supervised) :
    (s.markReported q v).reportedOf pid = if pid = q then some true else s.reportedOf pid := by
  unfold markReported reportedOf
  rw [OrderedMap.get?_insert]
  split <;> rfl

theorem reportedOf_report {s : Server} {q : Nat} {t : Turn} (h : s.report q = some t) (pid : Nat) :
    t.1.reportedOf pid = if pid = q then some true else s.reportedOf pid := by
  obtain ⟨v, code, -, -, -, -, he⟩ := report_ends h
  cases he with
  | crashed => rw [reportedOf_release, reportedOf_markReported]
  | dismissed => rw [reportedOf_markReported]
  | left => rw [reportedOf_release, reportedOf_markReported]

/-- **Whether an end was reported** changes with its report only. -/
theorem step_reported {s : Server} {m : Move} {t : Turn} (h : s.step clock m = some t) {pid : Nat}
    {b : Bool} (hb : s.reportedOf pid = some b) :
    t.1.reportedOf pid = some (b || m.reports pid) := by
  have hsame : ∀ {s' : Server}, s'.sessions = s.sessions → s'.reportedOf pid = some (b || false) := by
    intro s' hs
    rw [reportedOf_of_sessions hs, hb, Bool.or_false]
  have hon : ∀ q f, (s.onSession q f).1.reportedOf pid = some (b || false) := by
    intro q f
    rw [reportedOf_onSession, hb, Bool.or_false]
  cases step_turns h with
  | request job => exact hsame rfl
  | inquire => exact hsame rfl
  | save uri => exact hsame (aside_saved s uri).sessions
  | send command => exact hsame (aside_sendTask s command).sessions
  | relocate root => exact hsame rfl
  | grant k rest =>
    rcases s.current.eq_none_or_eq_some with hc | ⟨q, hc⟩
    · rw [acquire_of_none (s := { s with queue := rest }) hc]
      exact hsame (proceeds_proceed clock { s with queue := rest } k).sessions
    · rw [acquire_of_some (s := { s with queue := rest }) hc, reportedOf_onSession]
      exact hsame rfl
  | stopped k => exact hsame (proceeds_proceed clock s k).sessions
  | expired k => exact hsame (proceeds_proceed clock s k).sessions
  | answer k reply => exact hsame (proceeds_answered clock s k reply).sessions
  | inquiry n reply => exact hsame (aside_answerInquiry s n reply).sessions
  | spawned k x y q lock new =>
    have hq : pid ≠ q := by
      rintro rfl
      rw [sessionOf, Option.map_eq_none_iff] at new
      rw [reportedOf, new] at hb
      cases hb
    unfold Server.spawned reportedOf
    rw [OrderedMap.get?_insert_of_ne _ hq]
    exact hsame rfl
  | refused => exact hsame rfl
  | resume k q y =>
    rw [reportedOf_of_sessions (sessions_resumed s k q y)]
    exact hon q _
  | write q c chunk => exact hon q _
  | close q c => exact hon q _
  | exit q code => exact hon q _
  | pump q c => rw [reportedOf_pump, hb]; simp [Move.reports]
  | finish q => exact hon q _
  | report q t reported =>
    rw [reportedOf_report reported, hb]
    by_cases hq : pid = q
    · simp [Move.reports, hq]
    · simp [Move.reports, hq, Ne.symm hq]

theorem run_reports (pid : Nat) : ∀ (moves : List Move) {s : Server} {t : Turn},
    s.run clock moves = some t → moves.countP (·.reports pid) ≤ 1 ∧
      (s.reportedOf pid = some true → moves.countP (·.reports pid) = 0)
  | [], _, _, _ => by simp
  | m :: moves, s, t, h => by
    obtain ⟨t₁, t₂, hs, hr, rfl⟩ := run_cons.mp h
    obtain ⟨hle, hzero⟩ := run_reports pid moves hr
    by_cases hm : m.reports pid = true
    -- the move itself is the report: none came before, and none can follow
    · obtain rfl : m = .report pid := by
        cases m with
        | report q => rw [show q = pid by simpa [Move.reports] using hm]
        | _ => cases hm
      obtain ⟨v, -, hv, hf, -⟩ := report_ends hs
      have hb : s.reportedOf pid = some false := by rw [reportedOf, hv, Option.map_some, hf]
      have h₀ := hzero ((step_reported hs hb).trans (by rw [hm]; rfl))
      rw [List.countP_cons_of_pos hm, h₀, hb]
      exact ⟨Nat.le_refl _, fun h => by cases h⟩
    · rw [List.countP_cons_of_neg hm]
      refine ⟨hle, fun hb => hzero ?_⟩
      rw [step_reported hs hb, Bool.true_or]

/-! ### Asked to stop -/

/-- **A session was asked to stop** in a run: a task got the lock while it was the current one. -/
def AskedToStop (clock : Nat → Int) (s : Server) (pid : Nat) (moves : List Move) : Prop :=
  ∃ before after t, moves = before ++ .grant :: after ∧ s.run clock before = some t ∧
    t.1.current = some pid

theorem askedToStop_cons {s : Server} {m : Move} {t : Turn} (h : s.step clock m = some t) {pid : Nat}
    {moves : List Move} : s.AskedToStop clock pid (m :: moves) ↔
      (m = .grant ∧ s.current = some pid) ∨ t.1.AskedToStop clock pid moves := by
  constructor
  · rintro ⟨before, after, u, he, hr, hc⟩
    cases before with
    | nil => cases hr; cases he; exact .inl ⟨rfl, hc⟩
    | cons m' before =>
      cases he
      obtain ⟨t₁, t₂, hs, hr', rfl⟩ := run_cons.mp hr
      obtain rfl := Option.some.inj (h.symm.trans hs)
      exact .inr ⟨before, after, t₂, rfl, hr', hc⟩
  · rintro (⟨rfl, hc⟩ | ⟨before, after, u, rfl, hr, hc⟩)
    · exact ⟨[], moves, (s, []), rfl, rfl, hc⟩
    · exact ⟨m :: before, after, u.after t.2, rfl, run_cons.mpr ⟨t, u, h, hr, rfl⟩, hc⟩

/-- A deed asks a session to stop exactly if the lock is granted while it is the current one. -/
theorem stopRequested_deed (s : Server) (m : Move) (pid : Nat) {x : Session} {p : Process}
    (hp : x.process = some p) : (s.deed m pid x).stopRequested = true ↔
      x.stopRequested = true ∨ (m = .grant ∧ s.current = some pid) := by
  cases m with
  | write q c chunk => by_cases hq : q = pid <;> simp [deed, hq, Session.mapProcess]
  | close q c => by_cases hq : q = pid <;> simp [deed, hq, Session.mapProcess]
  | exit q code => by_cases hq : q = pid <;> simp [deed, hq, Session.mapProcess]
  | pump q c => by_cases hq : q = pid <;> simp [deed, hq, Session.stopRequested_pumped]
  | finish q => by_cases hq : q = pid <;> simp [deed, hq, Session.stopRequested_finish]
  | grant => by_cases hc : s.current = some pid <;> simp [deed, hc, Session.requestStop, hp]
  | resume =>
    simp only [deed, reduceCtorEq, false_and, or_false]
    split
    · split
      · rw [Session.stopRequested_attach]
      · rfl
    · rfl
  | _ => simp [deed]

/-- **A session has been asked to stop** exactly if that happened in the run up to it. -/
theorem run_stopRequested (pid : Nat) : ∀ (moves : List Move) {s : Server} {t : Turn} {x' : Session},
    s.Orderly → s.Staffed → s.run clock moves = some t → t.1.sessionOf pid = some x' →
      (x'.stopRequested = true ↔
        (∃ x, s.sessionOf pid = some x ∧ x.stopRequested = true) ∨ s.AskedToStop clock pid moves)
  | [], s, t, x', _, _, h, hx' => by
    cases h
    have hn : ¬ s.AskedToStop clock pid [] := by
      rintro ⟨before, after, -, he, -⟩
      cases before <;> cases he
    simp only [hx', Option.some.injEq, exists_eq_left', hn, or_false]
  | m :: moves, s, t, x', ho, hf, h, hx' => by
    obtain ⟨t₁, t₂, hs, hr, rfl⟩ := run_cons.mp h
    rw [run_stopRequested pid moves (orderly_step ho hs) (staffed_step hf hs) hr hx',
      askedToStop_cons hs, ← or_assoc]
    refine or_congr_left ?_
    constructor
    · rintro ⟨x₁, hx₁, hq⟩
      rcases step_cases hs hx₁ with ⟨x, hx, rfl⟩ | ⟨-, -, k, x, y, hh, rfl⟩
      · obtain ⟨p, hp⟩ := ho.process pid x hx
        rcases (stopRequested_deed s m pid hp).mp hq with hq | hq
        · exact .inl ⟨x, hx, hq⟩
        · exact .inr hq
      · obtain ⟨command, directory, rfl⟩ := ho.fresh k x y hh
        cases hq
    · intro hq
      obtain ⟨x, hx, hq⟩ : ∃ x, s.sessionOf pid = some x ∧
          (x.stopRequested = true ∨ (m = .grant ∧ s.current = some pid)) := by
        rcases hq with ⟨x, hx, hq⟩ | hq
        · exact ⟨x, hx, .inl hq⟩
        · obtain ⟨x, hx⟩ := hf.current pid hq.2
          exact ⟨x, hx, .inr hq⟩
      obtain ⟨p, hp⟩ := ho.process pid x hx
      exact ⟨_, step_deed hs hx, (stopRequested_deed s m pid hp).mpr hq⟩

/-! ### The session that is supervised -/

theorem attached_deed (s : Server) (m : Move) (pid : Nat) {x : Session} {p : Process}
    (hp : x.process = some p) : (s.deed m pid x).attached = true ↔
      x.attached = true ∨ (m = .resume ∧ ∃ t y, s.holder = some (t, .resuming pid y)) := by
  cases m with
  | write q c chunk => by_cases hq : q = pid <;> simp [deed, hq, Session.mapProcess]
  | close q c => by_cases hq : q = pid <;> simp [deed, hq, Session.mapProcess]
  | exit q code => by_cases hq : q = pid <;> simp [deed, hq, Session.mapProcess]
  | pump q c => by_cases hq : q = pid <;> simp [deed, hq, Session.attached_pumped]
  | finish q => by_cases hq : q = pid <;> simp [deed, hq, Session.attached_finish]
  | grant => by_cases hc : s.current = some pid <;> simp [deed, hc, Session.attached_requestStop]
  | resume =>
    simp only [deed, true_and]
    split
    · next t q y hh =>
      by_cases hq : q = pid
      · simp [hq, hh, Session.attach, hp]
      · simp [hq, hh]
    · next hh =>
      refine ⟨.inl, ?_⟩
      rintro (h | ⟨t, y, hy⟩)
      · exact h
      · exact absurd hy (hh t pid y)
  | _ => simp [deed]

theorem Passes.current_kept {s s' : Server} {m : Move} (h : Passes s s' m)
    (hl : s.holder ≠ none → s.current = none) {pid : Nat} (hc : s.current = some pid) :
    s'.current = some pid ∨ m = .report pid ∨ m = .grant := by
  have hfree : s.holder = none := by
    by_contra hh
    rw [hl hh] at hc
    cases hc
  cases h with
  | aside _ h => exact .inl (h.trans hc)
  | released was => rw [was] at hc; cases hc; exact .inr (.inl rfl)
  | stopping => exact .inr (.inr rfl)
  | granted => exact .inr (.inr rfl)
  | stopped _ _ lock => rw [hfree] at lock; cases lock
  | expired _ _ lock => rw [hfree] at lock; cases lock
  | answered _ lock => rw [hfree] at lock; cases lock
  | spawned _ _ _ lock => rw [hfree] at lock; cases lock
  | refused _ _ _ lock => rw [hfree] at lock; cases lock
  | resumed _ _ _ lock => rw [hfree] at lock; cases lock

/-- **The session that is supervised is the current one**, unless it was asked to stop. -/
def Supervises (s : Server) : Prop :=
  ∀ pid x, s.sessionOf pid = some x → s.reportedOf pid = some false → x.attached = true →
    x.stopRequested = false → s.current = some pid

theorem supervises_step {s : Server} {m : Move} {t : Turn} (ho : s.Orderly) (hi : s.Supervises)
    (h : s.step clock m = some t) : t.1.Supervises := by
  intro pid x' hx' hr' ha' hq'
  have hp := step_passes h
  rcases step_cases h hx' with ⟨x, hx, rfl⟩ | ⟨-, -, k, x, y, hh, rfl⟩
  · obtain ⟨v, hv, rfl⟩ := Option.map_eq_some_iff.mp hx
    obtain ⟨p, hxp⟩ := ho.process pid _ hx
    -- nobody has asked it to stop, and the move is not its report
    have hq : v.session.stopRequested = false ∧ ¬ (m = .grant ∧ s.current = some pid) := by
      rw [← Bool.not_eq_true, ← not_or, ← stopRequested_deed s m pid hxp, hq']
      simp
    have hr : v.reported = false ∧ m.reports pid = false := by
      have hb : s.reportedOf pid = some v.reported := by rw [reportedOf, hv, Option.map_some]
      rw [step_reported h hb, Option.some.injEq, Bool.or_eq_false_iff] at hr'
      exact hr'
    rcases (attached_deed s m pid hxp).mp ha' with ha | ⟨rfl, k, y, hh⟩
    · have hc := hi pid _ hx (by rw [reportedOf, hv, Option.map_some, hr.1]) ha hq.1
      rcases hp.current_kept ho.lock hc with hc' | rfl | rfl
      · exact hc'
      · simp [Move.reports] at hr
      · exact absurd ⟨rfl, hc⟩ hq.2
    · cases hp with
      | aside hm => cases hm
      | resumed k' q y' lock hc => rw [hh] at lock; cases lock; exact hc
  · obtain ⟨command, directory, rfl⟩ := ho.fresh k x y hh
    cases ha'

theorem supervises_run {s : Server} (ho : s.Orderly) (hi : s.Supervises) {moves : List Move}
    {t : Turn} (h : s.run clock moves = some t) : t.1.Supervises :=
  (run_induction moves (P := fun s => s.Orderly ∧ s.Supervises)
    (fun _ _ _ _ hp h => ⟨orderly_step hp.1 h, supervises_step hp.1 hp.2 h⟩) ⟨ho, hi⟩ h).2

/-! ### The end of a session -/

/-- An error is shown. -/
def ShowsError (effects : List Effect) : Prop := ∃ text, .tell (.showError text) ∈ effects

/-- The return code of a process that has exited. -/
def returnCodeOf (s : Server) (pid : Nat) : Option Int :=
  (s.sessionOf pid).bind fun x => x.process.bind (·.returnCode)

theorem returnCodeOf_of_finished {s : Server} (ho : s.Orderly) {pid : Nat} {x : Session} {code : Int}
    (hx : s.sessionOf pid = some x) (hf : x.finished = some code) : s.returnCodeOf pid = some code := by
  obtain ⟨-, p, hp, hc, -⟩ := (ho.sound pid x hx).finished code hf
  simp [returnCodeOf, hx, hp, hc]

/-- Nothing but a start that fails and the end of a session is a reason to show an error or to say
that there is no interpreter. -/
theorem step_alarm {s : Server} {m : Move} {t : Turn} (h : s.step clock m = some t)
    (ha : ShowsError t.2 ∨ stoppedStatus ∈ t.2) : (∃ e, m = .refused e) ∨ ∃ pid, m = .report pid := by
  have hmem : (∃ text, .tell (.showError text) ∈ Effect.weighty t.2) ∨
      stoppedStatus ∈ Effect.weighty t.2 := by
    rcases ha with ⟨text, ha⟩ | ha
    · exact .inl ⟨text, Effect.mem_weighty.mpr ⟨ha, rfl⟩⟩
    · exact .inr (Effect.mem_weighty.mpr ⟨ha, by decide⟩)
  have hout := step_outward h
  revert hmem hout
  generalize Effect.weighty t.2 = effects
  intro hmem hout
  cases hout with
  | refused e => exact .inl ⟨e, rfl⟩
  | crashed pid => exact .inr ⟨pid, rfl⟩
  | left pid => exact .inr ⟨pid, rfl⟩
  | _ => simp [stoppedStatus, status] at hmem

theorem report_alarm {s : Server} (ho : s.Orderly) (hi : s.Supervises) {pid : Nat} {t : Turn}
    {asked : Prop} (hasked : ∀ x, s.sessionOf pid = some x → (x.stopRequested = true ↔ asked))
    (h : s.report pid = some t) :
    (ShowsError t.2 ↔ ¬ asked ∧ ∃ code, s.returnCodeOf pid = some code ∧ code ≠ 0) ∧
      (ShowsError t.2 → stoppedStatus ∈ t.2) ∧
      (stoppedStatus ∈ t.2 → ¬ asked ∧ s.current = some pid ∧ t.1.current = none) := by
  obtain ⟨v, code, hv, hr, ha, hf, he⟩ := report_ends h
  have hx : s.sessionOf pid = some v.session := congrArg _ hv
  have hcode : s.returnCodeOf pid = some code := returnCodeOf_of_finished ho hx hf
  have hcur : v.session.stopRequested = false →
      ¬ asked ∧ s.current = some pid ∧ ((s.markReported pid v).release pid).current = none := by
    intro hq
    have hc : s.current = some pid := hi pid _ hx (by rw [reportedOf, hv, Option.map_some, hr]) ha hq
    refine ⟨by rw [← hasked _ hx, hq]; simp, hc, ?_⟩
    have hrel : (s.markReported pid v).release pid = { s.markReported pid v with current := none } :=
      if_pos hc
    rw [hrel]
  simp only [hcode, Option.some.injEq, exists_eq_left']
  cases he with
  | crashed unasked bad =>
    have hshow : ShowsError (crashReport (Exit.ofReturnCode code)) := ⟨_, .tail _ (.tail _ (.head _))⟩
    have hstop : stoppedStatus ∈ crashReport (Exit.ofReturnCode code) := by simp [crashReport]
    exact ⟨iff_of_true hshow ⟨(hcur unasked).1, bad⟩, fun _ => hstop, fun _ => hcur unasked⟩
  | dismissed hd =>
    have hshow : ¬ ShowsError [say "GHCi stopped."] := by simp [ShowsError, say]
    refine ⟨iff_of_false hshow ?_, fun h => absurd h hshow, fun h => ?_⟩
    · rintro ⟨hq, hne⟩
      rcases hd with hd | ⟨-, hz⟩
      · exact hq ((hasked _ hx).mp hd)
      · exact hne hz
    · simp [stoppedStatus, status, say] at h
  | left unasked clean =>
    have hshow : ¬ ShowsError [say "GHCi exited successfully.", stoppedStatus] := by
      simp [ShowsError, say, stoppedStatus, status]
    exact ⟨iff_of_false hshow fun h => h.2 clean, fun h => absurd h hshow, fun _ => hcur unasked⟩

/-- **Only the current session is reported as lost, and once.** In every run, for every process:

* reporting the end of its session shows an error exactly if the process exited with another return
  code than zero and its session was not asked to stop, and then it also says that there is no
  interpreter; whenever it says so the session was not asked to stop, it is the current one, and
  afterwards there is none;
* its end is reported at most once;
* while it is not the current one nothing that comes of it changes the current session or the task
  that holds the lock, shows an error or says that there is no interpreter. -/
theorem only_current_session_reported (clock : Nat → Int) (settings : Settings)
    (workspace : Option String) (directory : String) {moves : List Move} {s : Server}
    {effects : List Effect}
    (h : (start settings workspace directory).run clock moves = some (s, effects)) (pid : Nat) :
    (∀ t, s.step clock (.report pid) = some t →
      (ShowsError t.2 ↔ ¬ (start settings workspace directory).AskedToStop clock pid moves ∧
        ∃ code, s.returnCodeOf pid = some code ∧ code ≠ 0) ∧
      (ShowsError t.2 → stoppedStatus ∈ t.2) ∧
      (stoppedStatus ∈ t.2 →
        ¬ (start settings workspace directory).AskedToStop clock pid moves ∧
          s.current = some pid ∧ t.1.current = none)) ∧
    moves.countP (·.reports pid) ≤ 1 ∧
    (s.current ≠ some pid → ∀ m t, (comesFrom pid m = true ∨ m = .report pid) →
      s.step clock m = some t → t.1.current = s.current ∧ t.1.holder = s.holder ∧
        ¬ ShowsError t.2 ∧ stoppedStatus ∉ t.2) := by
  have ho₀ := orderly_start settings workspace directory
  have hf₀ := staffed_start settings workspace directory
  have ho : s.Orderly := orderly_run ho₀ h
  have hi : s.Supervises := supervises_run ho₀ (fun pid x hx => by cases hx) h
  have hasked : ∀ x, s.sessionOf pid = some x → (x.stopRequested = true ↔
      (start settings workspace directory).AskedToStop clock pid moves) := by
    intro x hx
    rw [run_stopRequested pid moves ho₀ hf₀ h hx]
    refine or_iff_right ?_
    rintro ⟨x, hx, -⟩
    cases hx
  refine ⟨fun t ht => report_alarm ho hi hasked ht, (run_reports pid moves h).1,
    fun hne m t hm hs => ?_⟩
  obtain ⟨hcur, hholder⟩ : t.1.current = s.current ∧ t.1.holder = s.holder := by
    cases step_passes hs with
    | aside _ hc hh => exact ⟨hc, hh⟩
    | released was =>
      rcases hm with hm | hm
      · cases hm
      · cases hm; exact absurd was hne
    | _ => rcases hm with hm | hm <;> cases hm
  have hquiet : ¬ (ShowsError t.2 ∨ stoppedStatus ∈ t.2) := by
    intro ha
    rcases step_alarm hs ha with ⟨e, rfl⟩ | ⟨q, rfl⟩
    · rcases hm with hm | hm <;> cases hm
    · obtain rfl : q = pid := by
        rcases hm with hm | hm
        · cases hm
        · cases hm; rfl
      obtain ⟨-, hsw, hst⟩ := report_alarm ho hi hasked hs
      rcases ha with ha | ha
      · exact hne (hst (hsw ha)).2.1
      · exact hne (hst ha).2.1
  rw [not_or] at hquiet
  exact ⟨hcur, hholder, hquiet⟩

/-- An interpreter is restarted and given up; it ends badly while the second one runs, which then ends
badly by itself. -/
def lostAfterRestart : List Move :=
  [.request (.start (some "ghci")), .grant, .spawned 1, .resume, .request .restart, .grant, .expired,
    .answer 1 .failed, .spawned 2, .resume, .exit 1 (-9), .close 1 .stdout, .close 1 .stderr,
    .pump 1 .stdout, .pump 1 .stderr, .finish 1, .report 1, .exit 2 1, .close 2 .stdout,
    .close 2 .stderr, .pump 2 .stdout, .pump 2 .stderr, .finish 2]

theorem only_current_session_reported_lost : ∃ s effects t,
    untouched.run (fun _ => 0) lostAfterRestart = some (s, effects) ∧
      s.step (fun _ => 0) (.report 2) = some t ∧ ShowsError t.2 ∧ stoppedStatus ∈ t.2 ∧
      s.current = some 2 ∧ t.1.current = none ∧
      lostAfterRestart.countP (·.reports 1) = 1 := by
  have hrun : ((untouched.run (fun _ => 0) lostAfterRestart).bind fun t =>
      (t.1.step (fun _ => 0) (.report 2)).map fun u => u.2) =
        some (crashReport (Exit.ofReturnCode 1)) := by decide +kernel
  obtain ⟨⟨s, effects⟩, h, hm⟩ := Option.bind_eq_some_iff.mp hrun
  obtain ⟨t, hs, ht⟩ := Option.map_eq_some_iff.mp hm
  have hshow : ShowsError t.2 := ht ▸ ⟨_, .tail _ (.tail _ (.head _))⟩
  obtain ⟨hreport, -, -⟩ := only_current_session_reported (fun _ => 0) _ _ _ h 2
  obtain ⟨-, hstop, hcur⟩ := hreport t hs
  obtain ⟨-, hc, hc'⟩ := hcur (hstop hshow)
  exact ⟨s, effects, t, h, hs, hshow, hstop hshow, hc, hc', by decide⟩

end Server

end GhciRelay
