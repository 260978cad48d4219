import GhciRelay.Process.Simulation
import GhciRelay.Proofs.Waiting

/-!
# A simulation is a run

A simulation plays a session by one particular schedule: after each act both outputs are pumped and the
end is noted, a call that waits is resumed at once, and one that asks for the end is resumed or given
up. So once the session was started, every act is a run of moves, and its answer is how the call ends
(`step_is_run`). What holds of all runs holds of every simulation. The one answer that no run gives is
that of a scripted process which is gone when it is to be killed.
-/

namespace GhciRelay.Simulation

open Session (Watch Ending)

variable {σ ε : Type} (listener : Channel → σ → String → Except ε (σ × List Effect))

/-- Everything that can run runs. -/
def settling : List Session.Move := [.pump .stdout, .pump .stderr, .finish]

/-- Both channels end. -/
def closing : List Session.Move := [.close .stdout, .close .stderr]

/-- What the process does when it is killed. -/
def killMoves : KillReaction → List Session.Move
  | .dies => .exit (-9) :: closing
  | .ignores => []
  | .isGone => .exit 0 :: closing

/-- The process is to be killed and is gone, and nobody makes up for that. -/
def killFails (m : Simulation) : Bool := m.session.isRunning && m.reaction = .isGone && !m.ownGroup

/-- The end is asked for, and all that follows from that. -/
def asking (m : Simulation) : List Session.Move :=
  .stop :: ((if m.session.isRunning then killMoves m.reaction else []) ++ settling)

/-- **The moves of an act** in a session that was started; its call gets the given number. -/
def moves (m : Simulation) (n : Nat) : Act → List Session.Move
  | .start => settling
  | .send _ => settling
  | .write c chunk => .write c chunk :: settling
  | .exit code closes => .exit code :: ((if closes then closing else []) ++ settling)
  | .close => closing ++ settling
  | .wait => .wait :: .resume n :: settling
  | .stop patient => m.asking ++ ((if patient then [.resume n] else []) ++ [.expire n])

/-- The act makes a call. -/
def isCall : Act → Bool
  | .wait => true
  | .stop _ => true
  | _ => false

/-- **The answer** that the end of a call is. -/
def answerOf : Option Ending → Except Error Answer
  | none => .ok .pending
  | some (.returned code) => .ok (.code code)
  | some (.raised e) => .error (.session e)
  | some (.gaveUp code) => .ok (.ofCode? code)

theorem session_settle (m : Simulation) :
    m.settle.1.session = ((m.session.pumped .stdout).pumped .stderr).finish.1 := by
  simp [settle, Session.pump_eq]

theorem session_settling (w : Watch σ) (ownGroup : Bool) :
    (w.run listener ownGroup settling).session =
      ((w.session.pumped .stdout).pumped .stderr).finish.1 := by
  simp [settling, Watch.run, Watch.step, Session.pump_eq]

theorem session_closing (w : Watch σ) (ownGroup : Bool) :
    (w.run listener ownGroup closing).session = w.session.mapProcess Process.close := by
  simp only [closing, Watch.run, List.foldl_cons, List.foldl_nil, Watch.step, Session.mapProcess,
    Option.map_map]
  rfl

theorem session_resume (w : Watch σ) (n : Nat) : (w.resume n).session = w.session := by
  rcases w.resume_cases n with h | ⟨e, h⟩
  · rw [h]
  · rw [h]
    rfl

theorem session_expire (w : Watch σ) (ownGroup : Bool) (n : Nat) :
    (w.step listener ownGroup (.expire n)).session = w.session := by
  simp only [Watch.step]
  split <;> rfl

theorem ending_resume {w : Watch σ} {n : Nat} {purpose : Session.Purpose}
    (h : w.calls[n]? = some ⟨purpose, none⟩) :
    answerOf ((w.resume n).ending n) = waited w.session := by
  unfold Watch.resume waited
  cases w.session.wait with
  | error e => simp [Watch.ending_endCall_self h, answerOf]
  | ok code =>
    cases code with
    | none => simp [Watch.ending, h, answerOf]
    | some code => simp [Watch.ending_endCall_self h, answerOf]

theorem session_kill (m : Simulation) (w : Watch σ) (hw : w.session = m.session) :
    (w.run listener m.ownGroup (killMoves m.reaction)).session = m.kill.1.session := by
  unfold kill
  cases m.reaction with
  | dies =>
    have h := session_closing listener (w.step listener m.ownGroup (.exit (-9))) m.ownGroup
    refine h.trans ?_
    simp [Watch.step, hw, onProcess, Session.mapProcess, Function.comp_def]
  | ignores => exact hw
  | isGone =>
    have h := session_closing listener (w.step listener m.ownGroup (.exit 0)) m.ownGroup
    refine h.trans ?_
    simp [Watch.step, hw, onProcess, Session.mapProcess, Function.comp_def]

theorem calls_killMoves (w : Watch σ) (ownGroup : Bool) (r : KillReaction) :
    (w.run listener ownGroup (killMoves r)).calls = w.calls := by
  cases r <;> rfl

theorem session_requestStop {m : Simulation} {w : Watch σ}
    (hw : w.session = (m.session.requestStop m.ownGroup).1) :
    (w.run listener m.ownGroup (if m.session.isRunning then killMoves m.reaction else [])).session =
      m.requestStop.1.session := by
  have hkill := session_kill listener { m with session := (m.session.requestStop m.ownGroup).1 } w hw
  cases hr : m.session.isRunning with
  | true =>
    simp only [requestStop, hr, if_true]
    exact hkill
  | false => simpa [requestStop, hr, Watch.run] using hw

theorem requestStop_fails (m : Simulation) :
    m.requestStop.2.1 = if m.killFails then .error .processGone else .ok () := by
  simp only [requestStop]
  split
  · next hr =>
    have hgone : m.killFails = (m.reaction = .isGone && !m.ownGroup) := by simp [killFails, hr]
    rw [hgone]
    simp only [kill]
    cases m.reaction with
    | dies => rfl
    | ignores => rfl
    | isGone => cases m.ownGroup <;> rfl
  · next hr =>
    have hgone : m.killFails = false := by simp [killFails, hr]
    rw [hgone]
    rfl

/-- The state before a call to stop is resumed or given up: all that follows from asking for the end
has happened. -/
theorem asked_is_run {m : Simulation} {w : Watch σ} (hw : w.session = m.session) :
    let w' := w.run listener m.ownGroup m.asking
    w'.session = m.requestStop.1.settle.1.session ∧ w'.calls = w.calls ++ [⟨.stop, none⟩] := by
  intro w'
  have hasked : (w.step listener m.ownGroup .stop).session =
      (m.session.requestStop m.ownGroup).1 := by rw [← hw]; rfl
  have hrun : w' = ((w.step listener m.ownGroup .stop).run listener m.ownGroup
      (if m.session.isRunning then killMoves m.reaction else [])).run listener m.ownGroup settling := by
    simp [w', asking, Watch.run, List.foldl_append]
  constructor
  · rw [hrun, session_settling, session_settle, session_requestStop listener hasked]
  · rw [hrun]
    split
    · exact calls_killMoves listener _ _ _
    · rfl

theorem kill_keeps (m : Simulation) : m.kill.1.session.attached = m.session.attached ∧
    m.kill.1.session.stopRequested = m.session.stopRequested := by
  unfold kill
  cases m.reaction <;> exact ⟨rfl, rfl⟩

theorem asked_keeps {m : Simulation} {p : Process} (hp : m.session.process = some p) :
    m.requestStop.1.settle.1.session.attached = m.session.attached ∧
      m.requestStop.1.settle.1.session.stopRequested = true := by
  have hrequest : (m.session.requestStop m.ownGroup).1 = { m.session with stopRequested := true } := by
    simp [Session.requestStop, hp]
  have hasked : m.requestStop.1.session.attached = m.session.attached ∧
      m.requestStop.1.session.stopRequested = true := by
    simp only [requestStop, hrequest]
    split
    · exact kill_keeps { m with session := { m.session with stopRequested := true } }
    · exact ⟨rfl, rfl⟩
  rw [session_settle, Session.attached_finish, Session.stopRequested_finish, Session.attached_pumped,
    Session.attached_pumped, Session.stopRequested_pumped, Session.stopRequested_pumped]
  exact hasked

theorem stop_eq {m : Simulation} {p : Process} (hp : m.session.process = some p) (patient : Bool) :
    (m.stop patient).simulation = m.requestStop.1.settle.1 ∧
    (m.stop patient).answer =
      match m.requestStop.2.1 with
      | .error e => .error e
      | .ok () => .ok (.ofCode? (if patient && m.requestStop.1.settle.1.session.finished.isSome then
          m.requestStop.1.settle.1.session.finished else m.requestStop.1.settle.1.returnCode?)) := by
  have hnone : m.session.process.isNone = false := by rw [hp]; rfl
  simp only [stop, hnone, Bool.false_eq_true, if_false]
  obtain ⟨m', killed, effects⟩ := m.requestStop
  cases killed with
  | error e => exact ⟨rfl, rfl⟩
  | ok _ =>
    dsimp only
    split <;> exact ⟨rfl, rfl⟩

theorem answerOf_expire {w : Watch σ} (ha : w.session.attached = true)
    (hs : w.session.stopRequested = true) {n : Nat} (hcall : w.calls[n]? = some ⟨.stop, none⟩)
    (ownGroup patient : Bool) :
    answerOf (((if patient then w.resume n else w).step listener ownGroup (.expire n)).ending n) =
      .ok (.ofCode? (if patient && w.session.finished.isSome then w.session.finished
        else w.session.process.bind (·.returnCode))) := by
  by_cases hf : (patient && w.session.finished.isSome) = true
  · obtain ⟨rfl, hfinished⟩ := Bool.and_eq_true_iff.mp hf
    obtain ⟨code, hcode⟩ := Option.isSome_iff_exists.mp hfinished
    have hn : n < w.calls.length := (List.getElem?_eq_some_iff.mp hcall).1
    obtain ⟨e, he⟩ := Option.isSome_iff_exists.mp (Watch.resume_ends ha hfinished hn)
    have hanswer : answerOf (some e) = .ok (.code code) := by
      rw [← he, ending_resume hcall, waited, Session.wait_of_finished ha hcode, hs]
      simp
    rw [if_pos rfl, Watch.ended_step listener he, hanswer, if_pos hf, hcode]
    rfl
  · -- whoever is resumed before the end was noted goes on waiting
    have hstays : (if patient then w.resume n else w) = w := by
      cases patient with
      | false => rfl
      | true =>
        have hnone : w.session.finished = none := by simpa using hf
        simp [Watch.resume, Session.wait, ha, hnone]
    have hpurpose : w.purpose n = some .stop := by simp [Watch.purpose, hcall]
    rw [hstays, if_neg hf, Watch.step, if_pos hpurpose, Watch.ending_endCall_self hcall]
    rfl

/-- Stopping is a run, and unless its process is gone its answer is how its call ends. -/
theorem stop_is_run {m : Simulation} {p : Process} (hp : m.session.process = some p)
    (ha : m.session.attached = true) {w : Watch σ} (hw : w.session = m.session) (patient : Bool) :
    let w' := w.run listener m.ownGroup (m.moves w.calls.length (.stop patient))
    w'.session = (m.stop patient).simulation.session ∧
      (m.stop patient).answer =
        if m.killFails then .error .processGone else answerOf (w'.ending w.calls.length) := by
  intro w'
  obtain ⟨hattached, hstopped⟩ := asked_keeps hp
  obtain ⟨hsimulation, hanswer⟩ := stop_eq hp patient
  obtain ⟨hsession, hcalls⟩ := asked_is_run listener hw
  have hrun : w' = (if patient then (w.run listener m.ownGroup m.asking).resume w.calls.length
      else w.run listener m.ownGroup m.asking).step listener m.ownGroup (.expire w.calls.length) := by
    cases patient <;> simp [w', moves, Watch.run, List.foldl_append, Watch.step]
  constructor
  · rw [hrun, session_expire, hsimulation, ← hsession]
    split
    · exact session_resume _ _
    · rfl
  · rw [hrun, hanswer, requestStop_fails]
    by_cases hgone : m.killFails = true
    · rw [if_pos hgone, if_pos hgone]
    · have hcall : (w.run listener m.ownGroup m.asking).calls[w.calls.length]? =
          some ⟨.stop, none⟩ := by
        rw [hcalls]
        simp
      rw [← hsession] at hattached hstopped
      rw [if_neg hgone, if_neg hgone, returnCode?, ← hsession]
      exact (answerOf_expire listener (hattached.trans ha) hstopped hcall m.ownGroup patient).symm

/-- **Every act of a simulation is a run** of the session that was started, and the answer of an act
that makes a call is how the call ends, unless the act is to stop a process that is gone. -/
theorem step_is_run {m : Simulation} {p : Process} (hp : m.session.process = some p)
    (ha : m.session.attached = true) {w : Watch σ} (hw : w.session = m.session) (act : Act) :
    let w' := w.run listener m.ownGroup (m.moves w.calls.length act)
    w'.session = (m.step act).simulation.session ∧
      (isCall act = true → m.killFails = false →
        answerOf (w'.ending w.calls.length) = (m.step act).answer) := by
  intro w'
  have hfollow : ∀ (m' : Simulation) (moves : List Session.Move),
      (w.run listener m.ownGroup moves).session = m'.session →
        (w.run listener m.ownGroup (moves ++ settling)).session = m'.settle.1.session := by
    intro m' moves h
    rw [session_settle, ← h, ← session_settling listener _ m.ownGroup, Watch.run, Watch.run,
      List.foldl_append]
    rfl
  have hclosing : ∀ w : Watch σ, (w.run listener m.ownGroup closing).session =
      w.session.mapProcess Process.close := fun w => session_closing listener w m.ownGroup
  cases act with
  | start =>
    refine ⟨(hfollow m [] hw).trans ?_, fun h => by cases h⟩
    simp [step, start, hp, plain, Result.follow]
  | send command =>
    refine ⟨(hfollow m [] hw).trans ?_, fun h => by cases h⟩
    simp only [step]
    cases m.session.send command <;> rfl
  | write c chunk =>
    refine ⟨hfollow (m.onProcess (·.write c chunk)) [.write c chunk] ?_, fun h => by cases h⟩
    rw [onProcess, ← hw]
    rfl
  | exit code closes =>
    cases closes with
    | false =>
      refine ⟨hfollow (m.onProcess (·.exit code)) [.exit code] ?_, fun h => by cases h⟩
      rw [onProcess, ← hw]
      rfl
    | true =>
      refine ⟨hfollow (m.onProcess fun p => (p.exit code).close) (.exit code :: closing) ?_,
        fun h => by cases h⟩
      refine (hclosing (w.step listener m.ownGroup (.exit code))).trans ?_
      simp [Watch.step, hw, onProcess, Session.mapProcess, Function.comp_def]
  | close =>
    refine ⟨hfollow (m.onProcess Process.close) closing ?_, fun h => by cases h⟩
    rw [hclosing, hw]
    rfl
  | wait =>
    refine ⟨hfollow m [.wait, .resume w.calls.length] ?_, fun _ _ => ?_⟩
    · exact (session_resume _ _).trans hw
    · have hcall : (w.step listener m.ownGroup .wait).calls[w.calls.length]? = some ⟨.wait, none⟩ := by
        simp [Watch.step]
      have hanswer := ending_resume hcall
      rw [show (w.step listener m.ownGroup .wait).session = m.session from hw] at hanswer
      exact hanswer
  | stop patient =>
    obtain ⟨hsession, hanswer⟩ := stop_is_run listener hp ha hw patient
    refine ⟨hsession, fun _ hgone => ?_⟩
    rw [hgone] at hanswer
    exact hanswer.symm

end GhciRelay.Simulation
