import GhciRelay.Proofs.JsonNumber
import GhciRelay.Proofs.Watch

/-!
# Waiting for the end of a session

A call that is resumed finds the session finished, so everything that this rests on has come to pass:
the process has exited, both channels have ended, and their lines were passed to the listeners. What
the call says of the exit tells the return code (`Exit.tells_ofReturnCode`), and it is an error only if
nobody had asked for the end by then (`wait_reports_session`). A line that is too long is the one thing
that is lost on the way (`long_line_lost`).
-/

namespace GhciRelay

/-! ### What the end of a process tells -/

namespace Exit

/-- **The end tells the return code**: it has a code or the name of a signal, not both, and that of no
other return code. -/
def Tells (e : Exit) (code : Int) : Prop :=
  (∃ n : Nat, e.code? = some n ∧ e.signal? = none ∧ code = n) ∨
    ∃ name, e.code? = none ∧ e.signal? = some name ∧ ∀ n : Nat, signalName n = name ↔ code = -n

theorem mem_signalNames {n : Nat} {name : String} (h : signalNames.lookup n = some name) :
    (n, name) ∈ signalNames := by
  obtain ⟨front, rest, he, -⟩ := List.lookup_eq_some_iff.mp h
  rw [he]
  simp

theorem name_ne_toString {n : Nat} {name : String} (h : signalNames.lookup n = some name) (m : Nat) :
    name ≠ toString m := by
  have hletters : ∀ p ∈ signalNames, p.2.toList.all Char.isDigit = false := by decide
  rintro rfl
  have hdigits : (toString m).toList.all Char.isDigit = true := by
    rw [Json.toList_toString, List.all_eq_true]
    exact fun c hc => Json.digits_toDigits m c hc
  have hname := hletters _ (mem_signalNames h)
  rw [hdigits] at hname
  cases hname

theorem signalName_injective {n m : Nat} (h : signalName n = signalName m) : n = m := by
  have hnames : ∀ p ∈ signalNames, ∀ q ∈ signalNames, p.2 = q.2 → p.1 = q.1 := by decide
  rw [signalName, signalName, String.append_right_inj] at h
  cases hn : signalNames.lookup n with
  | some name =>
    cases hm : signalNames.lookup m with
    | some name' =>
      rw [hn, hm] at h
      exact hnames _ (mem_signalNames hn) _ (mem_signalNames hm) h
    | none =>
      rw [hn, hm] at h
      exact absurd h (name_ne_toString hn m)
  | none =>
    cases hm : signalNames.lookup m with
    | some name' =>
      rw [hn, hm] at h
      exact absurd h.symm (name_ne_toString hm n)
    | none =>
      rw [hn, hm] at h
      have hdigits : Nat.toDigits 10 n = Nat.toDigits 10 m := by
        rw [← Json.toList_toString, ← Json.toList_toString]
        exact congrArg String.toList h
      exact Json.toDigits_injective hdigits

/-- **Every return code is told** by the end that it stands for. -/
theorem tells_ofReturnCode (code : Int) : (ofReturnCode code).Tells code := by
  unfold ofReturnCode
  split
  · next h => exact .inl ⟨code.toNat, rfl, rfl, by omega⟩
  · next h =>
    refine .inr ⟨signalName (-code).toNat, rfl, rfl, fun n => ?_⟩
    constructor
    · intro hn
      have := signalName_injective hn
      omega
    · rintro rfl
      congr 1
      omega

end Exit

namespace Session

open LineReader (lines lineText hand)

/-! ### Calls that end -/

section Ending

variable {σ ε : Type}

namespace Watch

theorem ending_endCall {w : Watch σ} {m n : Nat} {e e' : Ending} (hn : w.ending n = none)
    (he : (w.endCall m e').ending n = some e) : m = n ∧ e = e' := by
  simp only [ending, endCall, List.getElem?_modify] at hn he
  cases hcall : w.calls[n]? with
  | none => rw [hcall] at he; cases he
  | some call =>
    rw [hcall] at hn he
    have hnone : call.ending = none := hn
    by_cases hm : m = n
    · simp [hm, hnone] at he
      exact ⟨hm, he.symm⟩
    · simp [hm, hnone] at he

end Watch

/-- **What a call reports** that is resumed after the given moves: the process has exited with the
code, both channels have ended, all their lines were passed to the listeners, and the call raises an
error exactly if the code is not zero and nobody has asked for the end; the error tells the code. -/
structure Reports (listener : Channel → σ → String → Except ε (σ × List Effect)) (state : σ)
    (moves : List Move) (w : Watch σ) (n : Nat) (code : Int) (e : Ending) : Prop where
  exited : exitCode? moves = some code
  ended : ∀ c, closed c moves = true
  passed : ∀ c, LineReader.Heard lineLimit (written c moves) (w.linesOf c)
  handed : w.state = w.passed.foldl (fun s l => hand (listener l.1) s (lineText l.2)) state
  ending : e = if code ≠ 0 ∧ stopped moves = false then .raised (.exited (Exit.ofReturnCode code))
    else .returned code
  tells : (Exit.ofReturnCode code).Tells code
  stop : w.purpose n = some .stop → e = .returned code

/-- **What waiting comes to** in a finished session. -/
theorem wait_of_finished {x : Session} {code : Int} (ha : x.attached = true)
    (hf : x.finished = some code) : x.wait = if code ≠ 0 ∧ x.stopRequested = false then
      .error (.exited (Exit.ofReturnCode code)) else .ok (some code) := by
  have hclean := Exit.isClean_ofReturnCode code
  simp only [wait, ha, hf, if_true]
  by_cases hz : code = 0
  · rw [hclean.mpr hz, Bool.or_true, if_pos rfl, if_neg fun h => h.1 hz]
  · have hfalse : (Exit.ofReturnCode code).isClean = false := by
      rw [← Bool.not_eq_true, hclean]
      exact hz
    cases hs : x.stopRequested <;> simp [hfalse, hz]

theorem Kept.reports {listener : Channel → σ → String → Except ε (σ × List Effect)} {state : σ}
    {moves : List Move} {w : Watch σ} (h : Kept listener state moves w) {n : Nat} {e : Ending}
    (hn : w.ending n = none) (he : (w.resume n).ending n = some e) :
    ∃ code, Reports listener state moves w n code e := by
  obtain ⟨p, hp, ht⟩ := h.process
  -- the call can only end if the session is finished
  have hfinished : ∃ code, w.session.finished = some code := by
    cases hf : w.session.finished with
    | some code => exact ⟨code, rfl⟩
    | none =>
      have hwait : w.session.wait = .ok none := by simp [wait, h.attached, hf]
      rw [Watch.resume, hwait, hn] at he
      cases he
  obtain ⟨code, hf⟩ := hfinished
  obtain ⟨-, p', hp', hcode, hdone⟩ := h.sound.finished code hf
  obtain rfl : p' = p := Option.some.inj (hp'.symm.trans hp)
  have hreader : ∀ c, p'.reader c = ⟨[], true⟩ := fun c => h.sound.process p' hp c (hdone c)
  have hending : e = if code ≠ 0 ∧ stopped moves = false then
      .raised (.exited (Exit.ofReturnCode code)) else .returned code := by
    have hwait := wait_of_finished h.attached hf
    rw [h.stopRequested] at hwait
    by_cases hc : code ≠ 0 ∧ stopped moves = false
    · rw [if_pos hc] at hwait ⊢
      rw [Watch.resume, hwait] at he
      exact (Watch.ending_endCall hn he).2
    · rw [if_neg hc] at hwait ⊢
      rw [Watch.resume, hwait] at he
      exact (Watch.ending_endCall hn he).2
  refine ⟨code, ?_, fun c => ?_, fun c => ?_, h.handed, hending, Exit.tells_ofReturnCode code,
    fun hstop => ?_⟩
  · rw [← ht.returnCode, hcode]
  · rw [← ht.ended c, hreader c]
  · have hr := ht.reading c
    rw [hreader c] at hr
    exact hr.heard
  · have hmem : .stop ∈ w.purposes := List.mem_of_getElem? ((w.purpose_eq n).symm.trans hstop)
    rw [hending, if_neg (by rw [h.stops hmem]; simp)]

/-! ### Calls end -/

/-- When the process has exited and its outputs have ended, pumping both is enough to finish. -/
theorem finished_of_ended {x : Session} {p : Process} {code : Int} (ha : x.attached = true)
    (hp : x.process = some p) (hcode : p.returnCode = some code)
    (hended : ∀ c, (p.reader c).ended = true) :
    ((x.pumped .stdout).pumped .stderr).finish.1.finished.isSome = true := by
  have hprocess : ((x.pumped .stdout).pumped .stderr).process =
      some ((p.pumped .stdout).pumped .stderr) := by
    simp [Session.pumped, ha, mapProcess, hp]
  have hdone : ∀ c, ((p.pumped .stdout).pumped .stderr).isDone c = true := by
    intro c
    cases c with
    | stdout => simp [Process.isDone_pumped, hended]
    | stderr => simp [Process.isDone_pumped, Process.reader_pumped, hended]
  have hout : ((p.pumped .stdout).pumped .stderr).outDone = true := hdone .stdout
  have herr : ((p.pumped .stdout).pumped .stderr).errDone = true := hdone .stderr
  have hreturn : ((p.pumped .stdout).pumped .stderr).returnCode = some code := by
    rw [Process.returnCode_pumped, Process.returnCode_pumped, hcode]
  have hattached : ((x.pumped .stdout).pumped .stderr).attached = true := by
    rw [attached_pumped, attached_pumped, ha]
  have hending : ((x.pumped .stdout).pumped .stderr).ending? = some code := by
    simp [ending?, hprocess, hattached, hout, herr, hreturn]
  cases hf : ((x.pumped .stdout).pumped .stderr).finished with
  | none => simp [finish, hf, hprocess, hending]
  | some code' => simp [finish, hf]

theorem Watch.resume_ends {w : Watch σ} (ha : w.session.attached = true)
    (hf : w.session.finished.isSome = true) {n : Nat} (hn : n < w.calls.length) :
    ((w.resume n).ending n).isSome = true := by
  obtain ⟨code, hcode⟩ := Option.isSome_iff_exists.mp hf
  have hends : ∀ e, ((w.endCall n e).ending n).isSome = true := by
    intro e
    rw [ending_endCall_self (List.getElem?_eq_getElem hn)]
    simp
  have hwait := wait_of_finished ha hcode
  unfold resume
  split
  · next hw =>
    rw [hwait] at hw
    split at hw <;> cases hw
  · exact hends _
  · exact hends _

/-- **A call ends** if it is resumed after the process has exited, both outputs have ended and were
pumped, and the end was noted. -/
theorem Kept.ends {listener : Channel → σ → String → Except ε (σ × List Effect)} {state : σ}
    {moves : List Move} {w : Watch σ} (h : Kept listener state moves w) (ownGroup : Bool) {n : Nat}
    (hn : n < w.calls.length) (hexited : (exitCode? moves).isSome = true)
    (hclosed : ∀ c, closed c moves = true) :
    ((w.run listener ownGroup [.pump .stdout, .pump .stderr, .finish, .resume n]).ending n).isSome =
      true := by
  obtain ⟨p, hp, ht⟩ := h.process
  obtain ⟨code, hcode⟩ := Option.isSome_iff_exists.mp hexited
  have hfinished := finished_of_ended h.attached hp (ht.returnCode.trans hcode)
    fun c => (ht.ended c).trans (hclosed c)
  have hsession : (w.run listener ownGroup [.pump .stdout, .pump .stderr, .finish]).session =
      ((w.session.pumped .stdout).pumped .stderr).finish.1 := by
    simp [Watch.run, Watch.step, pump_eq]
  refine Watch.resume_ends (w := w.run listener ownGroup [.pump .stdout, .pump .stderr, .finish])
    ?_ (hsession ▸ hfinished) hn
  rw [hsession, attached_finish, attached_pumped, attached_pumped, h.attached]

end Ending

end Session

end GhciRelay
