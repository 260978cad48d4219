import GhciRelay.Process.Session
import GhciRelay.Proofs.LineReader

/-!
# Sessions: the laws

Each thing that can happen to a session is described by what it does to the two readers of its
process. A session is *sound* if a channel that counts as done has ended with nothing left in it, and
a session that is finished has an exited process and both channels done. Everything that can happen
keeps a session sound, so a finished session has handed on all that its process ever wrote.
-/

namespace GhciRelay

theorem Exit.isClean_ofReturnCode (code : Int) : (ofReturnCode code).isClean = true ↔ code = 0 := by
  unfold ofReturnCode
  split
  · simp only [isClean, beq_iff_eq]
    omega
  · simp only [isClean, Bool.false_eq_true, false_iff]
    omega

/-! ### Processes -/

namespace Process

variable (p : Process)

/-- A channel has been taken to its end. -/
def isDone : Channel → Bool
  | .stdout => p.outDone
  | .stderr => p.errDone

/-- The process after all that can be taken from a channel has been taken. -/
def pumped (channel : Channel) : Process :=
  Session.markDone (p.setReader ((p.reader channel).drain Session.lineLimit).2 channel) channel

theorem reader_setReader (r : LineReader) (c c' : Channel) :
    (p.setReader r c).reader c' = if c' = c then r else p.reader c' := by
  cases c <;> cases c' <;> rfl

theorem isDone_setReader (r : LineReader) (c c' : Channel) :
    (p.setReader r c).isDone c' = p.isDone c' := by
  cases c <;> cases c' <;> rfl

theorem returnCode_setReader (r : LineReader) (c : Channel) :
    (p.setReader r c).returnCode = p.returnCode := by
  cases c <;> rfl

theorem reader_write (c c' : Channel) (chunk : List UInt8) :
    (p.write c chunk).reader c' = if c' = c then (p.reader c).arrive chunk else p.reader c' :=
  p.reader_setReader _ _ _

theorem reader_closeChannel (c c' : Channel) :
    (p.closeChannel c).reader c' = if c' = c then (p.reader c).close else p.reader c' :=
  p.reader_setReader _ _ _

theorem reader_exit (code : Int) (c : Channel) : (p.exit code).reader c = p.reader c := by
  unfold exit
  cases c <;> split <;> rfl

theorem isDone_exit (code : Int) (c : Channel) : (p.exit code).isDone c = p.isDone c := by
  unfold exit
  cases c <;> split <;> rfl

theorem exit_of_returnCode {code : Int} (h : p.returnCode = some code) (code' : Int) :
    p.exit code' = p := by
  simp [exit, isAlive, h]

theorem reader_pumped (c c' : Channel) : (p.pumped c).reader c' =
    if c' = c then ((p.reader c).drain Session.lineLimit).2 else p.reader c' := by
  cases c <;> cases c' <;> rfl

theorem isDone_pumped (c c' : Channel) :
    (p.pumped c).isDone c' = if c' = c then (p.reader c).ended else p.isDone c' := by
  cases c <;> cases c'
  · exact LineReader.drain_ended _ _
  · rfl
  · rfl
  · exact LineReader.drain_ended _ _

theorem returnCode_pumped (c : Channel) : (p.pumped c).returnCode = p.returnCode := by
  cases c <;> rfl

/-- **A channel that is done** has ended, and nothing is left in it. -/
def Sound : Prop := ∀ c, p.isDone c = true → p.reader c = ⟨[], true⟩

theorem sound_fresh (pid : Nat) : (fresh pid).Sound := by
  intro c h
  cases c <;> cases h

variable {p}

theorem Sound.setReader (hs : p.Sound) (c : Channel) {r : LineReader}
    (hr : p.reader c = ⟨[], true⟩ → r = ⟨[], true⟩) : (p.setReader r c).Sound := by
  intro c' h
  have hq := hs c' ((p.isDone_setReader r c c').symm.trans h)
  rw [reader_setReader]
  split
  · next hc => subst hc; exact hr hq
  · exact hq

theorem Sound.exit (hs : p.Sound) (code : Int) : (p.exit code).Sound := by
  intro c h
  rw [isDone_exit] at h
  rw [reader_exit]
  exact hs c h

theorem Sound.pumped (hs : p.Sound) (c : Channel) : (p.pumped c).Sound := by
  intro c' h
  rw [isDone_pumped] at h
  rw [reader_pumped]
  by_cases hc : c' = c
  · rw [if_pos hc] at h ⊢
    exact LineReader.drain_of_ended _ h
  · rw [if_neg hc] at h ⊢
    exact hs c' h

/-- **What is never undone** of a process: its exit, and the end of a channel with nothing left in
it. -/
structure Later (p p' : Process) : Prop where
  exited : ∀ code, p.returnCode = some code → p'.returnCode = some code
  quiet : ∀ c, p.reader c = ⟨[], true⟩ → p'.reader c = ⟨[], true⟩

theorem Later.refl (p : Process) : p.Later p := ⟨fun _ h => h, fun _ h => h⟩

theorem Later.trans {p q r : Process} (h₁ : p.Later q) (h₂ : q.Later r) : p.Later r :=
  ⟨fun code h => h₂.exited code (h₁.exited code h), fun c h => h₂.quiet c (h₁.quiet c h)⟩

theorem later_setReader (p : Process) (c : Channel) {r : LineReader}
    (hr : p.reader c = ⟨[], true⟩ → r = ⟨[], true⟩) : p.Later (p.setReader r c) := by
  refine ⟨fun code h => (p.returnCode_setReader _ _).trans h, fun c' h => ?_⟩
  rw [reader_setReader]
  split
  · next hc => subst hc; exact hr h
  · exact h

theorem later_write (p : Process) (c : Channel) (chunk : List UInt8) : p.Later (p.write c chunk) :=
  p.later_setReader c fun h => by rw [h]; rfl

theorem later_closeChannel (p : Process) (c : Channel) : p.Later (p.closeChannel c) :=
  p.later_setReader c fun h => by rw [h]; rfl

theorem later_exit (p : Process) (code : Int) : p.Later (p.exit code) := by
  refine ⟨fun code' h => ?_, fun c h => ?_⟩
  · rw [p.exit_of_returnCode h, h]
  · rw [reader_exit, h]

theorem later_pumped (p : Process) (c : Channel) : p.Later (p.pumped c) := by
  refine ⟨fun code h => (p.returnCode_pumped c).trans h, fun c' h => ?_⟩
  rw [reader_pumped]
  split
  · next hc => rw [← hc, h]; rfl
  · exact h

end Process

/-! ### What can happen to a session -/

namespace Session

variable (x : Session)

/-- The session after a channel has been pumped. -/
def pumped (c : Channel) : Session := if x.attached then x.mapProcess (·.pumped c) else x

/-- What pumping a channel takes from the session. -/
def takes (c : Channel) : List Piece :=
  match x.process with
  | some p => if x.attached then ((p.reader c).drain lineLimit).1 else []
  | none => []

/-- **Pumping** takes pieces from the session and hands them on in order. -/
theorem pump_eq {σ ε : Type} (handler : σ → String → Except ε (σ × List Effect)) (c : Channel)
    (state : σ) : x.pump handler c state =
      (x.pumped c, LineReader.deliverFrom c handler state [] (x.takes c)) := by
  unfold pump pumped takes mapProcess
  cases hp : x.process with
  | none =>
    obtain ⟨command, directory, process, attached, stopRequested, finished⟩ := x
    cases hp
    cases attached <;> rfl
  | some p => by_cases ha : x.attached = true <;> simp [ha, LineReader.pump, Process.pumped,
      LineReader.deliverFrom]

theorem wait_cases : x.wait = .ok none ∨ x.wait = .error .neverStarted ∨
    ∃ code, x.finished = some code ∧
      (x.wait = .ok (some code) ∨ x.wait = .error (.exited (Exit.ofReturnCode code))) := by
  unfold wait
  split_ifs with ha
  · split
    · exact .inl rfl
    · next code hf =>
      refine .inr (.inr ⟨code, hf, ?_⟩)
      dsimp only
      split
      · exact .inl rfl
      · exact .inr rfl
  · exact .inr (.inl rfl)

/-- The channel takes what is written to it. -/
def isOpen (c : Channel) : Bool :=
  match x.process with
  | some p => !(p.reader c).ended
  | none => false

theorem process_finish : x.finish.1.process = x.process := by
  unfold finish
  split <;> rfl

theorem process_requestStop (ownGroup : Bool) : (x.requestStop ownGroup).1.process = x.process := by
  unfold requestStop
  split <;> rfl

theorem process_attach : x.attach.1.process = x.process := by
  unfold attach
  split <;> rfl

theorem attached_pumped (c : Channel) : (x.pumped c).attached = x.attached := by
  unfold pumped
  split <;> rfl

theorem attached_finish : x.finish.1.attached = x.attached := by
  unfold finish
  split <;> rfl

theorem attached_requestStop (ownGroup : Bool) :
    (x.requestStop ownGroup).1.attached = x.attached := by
  unfold requestStop
  split <;> rfl

theorem stopRequested_pumped (c : Channel) : (x.pumped c).stopRequested = x.stopRequested := by
  unfold pumped
  split <;> rfl

theorem stopRequested_finish : x.finish.1.stopRequested = x.stopRequested := by
  unfold finish
  split <;> rfl

theorem stopRequested_attach : x.attach.1.stopRequested = x.stopRequested := by
  unfold attach
  split <;> rfl

/-- **What is never undone** of a session. -/
structure Later (x x' : Session) : Prop where
  process : ∀ p, x.process = some p → ∃ p', x'.process = some p' ∧ p.Later p'
  attached : x.attached = true → x'.attached = true
  finished : ∀ code, x.finished = some code → x'.finished = some code

theorem Later.refl (x : Session) : x.Later x :=
  ⟨fun p h => ⟨p, h, .refl p⟩, id, fun _ h => h⟩

theorem Later.trans {x y z : Session} (h₁ : x.Later y) (h₂ : y.Later z) : x.Later z where
  process p hp := by
    obtain ⟨q, hq, hpq⟩ := h₁.process p hp
    obtain ⟨r, hr, hqr⟩ := h₂.process q hq
    exact ⟨r, hr, hpq.trans hqr⟩
  attached h := h₂.attached (h₁.attached h)
  finished code h := h₂.finished code (h₁.finished code h)

theorem later_mapProcess (x : Session) {f : Process → Process} (hf : ∀ p : Process, p.Later (f p)) :
    x.Later (x.mapProcess f) :=
  ⟨fun p h => ⟨f p, congrArg (Option.map f) h, hf p⟩, id, fun _ h => h⟩

theorem later_pumped (x : Session) (c : Channel) : x.Later (x.pumped c) := by
  unfold pumped
  split
  · exact x.later_mapProcess (·.later_pumped c)
  · exact .refl x

theorem later_finish (x : Session) : x.Later x.finish.1 := by
  unfold finish
  split
  · next hn _ _ => exact ⟨fun p h => ⟨p, h, .refl p⟩, id, fun code h => by rw [hn] at h; cases h⟩
  · exact .refl x

theorem later_requestStop (x : Session) (ownGroup : Bool) : x.Later (x.requestStop ownGroup).1 := by
  unfold requestStop
  split
  · exact .refl x
  · exact ⟨fun p h => ⟨p, h, .refl p⟩, id, fun _ h => h⟩

theorem later_attach (x : Session) : x.Later x.attach.1 := by
  unfold attach
  split
  · exact .refl x
  · exact ⟨fun p h => ⟨p, h, .refl p⟩, fun _ => rfl, fun _ h => h⟩

theorem attached_attach {p : Process} (h : x.process = some p) : x.attach.1.attached = true := by
  simp [attach, h]

/-- **A sound session.** -/
structure Sound : Prop where
  process : ∀ p, x.process = some p → p.Sound
  finished : ∀ code, x.finished = some code → x.attached = true ∧
    ∃ p, x.process = some p ∧ p.returnCode = some code ∧ ∀ c, p.isDone c = true

theorem sound_launch (command : String) (directory : Option String) (pid : Nat) :
    ((create command directory).launch pid).Sound where
  process p h := by cases h; exact Process.sound_fresh pid
  finished code h := by cases h

variable {x}

/-- What keeps processes sound, and what a finished session rests on, keeps sessions sound. -/
theorem Sound.mapProcess (hs : x.Sound) (f : Process → Process)
    (hf : ∀ p, p.Sound → (f p).Sound)
    (hd : ∀ p code, p.Sound → p.returnCode = some code → (∀ c, p.isDone c = true) →
      (f p).returnCode = some code ∧ ∀ c, (f p).isDone c = true) : (x.mapProcess f).Sound where
  process p h := by
    obtain ⟨q, hq, rfl⟩ := Option.map_eq_some_iff.mp h
    exact hf q (hs.process q hq)
  finished code h := by
    obtain ⟨ha, p, hp, hr, hc⟩ := hs.finished code h
    have hp' : (x.mapProcess f).process = some (f p) := congrArg (Option.map f) hp
    exact ⟨ha, f p, hp', hd p code (hs.process p hp) hr hc⟩

theorem Sound.setReader (hs : x.Sound) (c : Channel) (g : LineReader → LineReader)
    (hg : g ⟨[], true⟩ = ⟨[], true⟩) :
    (x.mapProcess fun p => p.setReader (g (p.reader c)) c).Sound := by
  refine hs.mapProcess _ (fun p hp => ?_) fun p code _ hr hd => ⟨?_, fun c' => ?_⟩
  · exact hp.setReader c fun h => by rw [h, hg]
  · rw [← hr]; exact p.returnCode_setReader _ _
  · rw [← hd c']; exact p.isDone_setReader _ _ _

theorem Sound.write (hs : x.Sound) (c : Channel) (chunk : List UInt8) :
    (x.mapProcess (·.write c chunk)).Sound :=
  hs.setReader c (·.arrive chunk) rfl

theorem Sound.closeChannel (hs : x.Sound) (c : Channel) :
    (x.mapProcess (·.closeChannel c)).Sound :=
  hs.setReader c .close rfl

theorem Sound.exit (hs : x.Sound) (code : Int) : (x.mapProcess (·.exit code)).Sound := by
  refine hs.mapProcess _ (fun p hp => hp.exit code) fun p code' _ hr hd => ?_
  rw [p.exit_of_returnCode hr]
  exact ⟨hr, hd⟩

theorem Sound.pumped (hs : x.Sound) (c : Channel) : (x.pumped c).Sound := by
  unfold Session.pumped
  split
  · refine hs.mapProcess _ (fun p hp => hp.pumped c) fun p code hp hr hd => ⟨?_, fun c' => ?_⟩
    · rw [p.returnCode_pumped, hr]
    · rw [p.isDone_pumped, hd c']
      split
      · rw [hp c (hd c)]
      · rfl
  · exact hs

theorem Sound.finish (hs : x.Sound) : x.finish.1.Sound := by
  unfold Session.finish
  split
  · next p code hn hp he =>
    refine ⟨hs.process, fun code' h => ?_⟩
    cases h
    simp only [ending?, hp] at he
    split at he
    · next hd =>
      simp only [Bool.and_eq_true] at hd
      refine ⟨hd.1.1, p, hp, he, fun c => ?_⟩
      cases c
      · exact hd.1.2
      · exact hd.2
    · cases he
  · exact hs

theorem Sound.requestStop (hs : x.Sound) (ownGroup : Bool) : (x.requestStop ownGroup).1.Sound := by
  unfold Session.requestStop
  split
  · exact hs
  · exact ⟨hs.process, hs.finished⟩

theorem Sound.attach (hs : x.Sound) : x.attach.1.Sound := by
  unfold Session.attach
  split
  · exact hs
  · refine ⟨hs.process, fun code h => ?_⟩
    obtain ⟨-, hp⟩ := hs.finished code h
    exact ⟨rfl, hp⟩

end Session

end GhciRelay
