import GhciRelay.Proofs.Lines
import GhciRelay.Proofs.Session
import Mathlib.Data.List.Induction

/-!
# A session that is watched

A session that was started is left to itself: its process writes, closes its outputs and exits, the
two outputs are pumped and the end is noted, and any number of calls wait for the end or ask for it,
all of it in any order. A call is resumed some time after the end was noted, or gives up before.

What such a run comes to is said in terms of its moves alone: what was written to a channel before it
was closed, the first exit, and whether anyone has asked for the end. `Kept` ties the state of a run to
its moves; one move keeps it (`kept_step`), and so does a run (`kept_run`).
-/

namespace GhciRelay

namespace Session

open LineReader (Reading lineText hand)

/-! ### Runs -/

/-- **What can happen** in a session that was started. -/
inductive Move where
  /-- the process writes to a channel -/
  | write (c : Channel) (chunk : List UInt8)
  /-- a channel ends -/
  | close (c : Channel)
  /-- the process exits -/
  | exit (code : Int)
  /-- a channel is pumped -/
  | pump (c : Channel)
  /-- the end is noted, if it has come -/
  | finish
  /-- someone begins to wait -/
  | wait
  /-- someone asks for the end and begins to wait -/
  | stop
  /-- the call with the number is resumed, if the end was noted -/
  | resume (n : Nat)
  /-- the time of the call with the number is over, if it has asked for the end -/
  | expire (n : Nat)

/-- What a call was made for. -/
inductive Purpose where
  | wait
  | stop
deriving DecidableEq

/-- **How a call ends.** -/
inductive Ending where
  | returned (code : Int)
  | raised (e : Error)
  | gaveUp (code : Option Int)
deriving DecidableEq

/-- A call, and how it has ended, if it has. -/
structure Call where
  purpose : Purpose
  ending : Option Ending
deriving DecidableEq

/-- **A session with its listeners and its calls**: the state of the listeners, the lines that were
passed to them, with their channels and in order, and the calls, which are known by their numbers. -/
structure Watch (σ : Type) where
  session : Session
  state : σ
  passed : List (Channel × List UInt8)
  calls : List Call

namespace Watch

variable {σ ε : Type}

/-- A session that was just started. -/
def start (command : String) (directory : Option String) (pid : Nat) (state : σ) : Watch σ :=
  ⟨((create command directory).launch pid).attach.1, state, [], []⟩

/-- How a call has ended. -/
def ending (w : Watch σ) (n : Nat) : Option Ending := w.calls[n]?.bind (·.ending)

/-- What a call was made for. -/
def purpose (w : Watch σ) (n : Nat) : Option Purpose := w.calls[n]?.map (·.purpose)

/-- A call ends, unless it has ended already. -/
def endCall (w : Watch σ) (n : Nat) (e : Ending) : Watch σ :=
  { w with calls := w.calls.modify n fun call => { call with ending := call.ending.or (some e) } }

/-- A call is resumed. -/
def resume (w : Watch σ) (n : Nat) : Watch σ :=
  match w.session.wait with
  | .ok none => w
  | .ok (some code) => w.endCall n (.returned code)
  | .error e => w.endCall n (.raised e)

/-- The lines that were passed from a channel. -/
def linesOf (w : Watch σ) (c : Channel) : List (List UInt8) :=
  (w.passed.filter (·.1 = c)).map Prod.snd

section Step

variable (listener : Channel → σ → String → Except ε (σ × List Effect)) (ownGroup : Bool)

/-- **One move.** -/
def step (w : Watch σ) : Move → Watch σ
  | .write c chunk => { w with session := w.session.mapProcess (·.write c chunk) }
  | .close c => { w with session := w.session.mapProcess (·.closeChannel c) }
  | .exit code => { w with session := w.session.mapProcess (·.exit code) }
  | .pump c =>
    let (x, state, _) := w.session.pump (listener c) c w.state
    { w with
      session := x
      state := state
      passed := w.passed ++ ((w.session.takes c).filterMap Piece.line?).map (c, ·) }
  | .finish => { w with session := w.session.finish.1 }
  | .wait => { w with calls := w.calls ++ [⟨.wait, none⟩] }
  | .stop =>
    { w with
      session := (w.session.requestStop ownGroup).1
      calls := w.calls ++ [⟨.stop, none⟩] }
  | .resume n => w.resume n
  | .expire n =>
    if w.purpose n = some .stop then w.endCall n (.gaveUp (w.session.process.bind (·.returnCode)))
    else w

/-- **A run.** -/
def run (w : Watch σ) (moves : List Move) : Watch σ := moves.foldl (step listener ownGroup) w

theorem run_append (w : Watch σ) (moves : List Move) (move : Move) :
    w.run listener ownGroup (moves ++ [move]) =
      (w.run listener ownGroup moves).step listener ownGroup move :=
  List.foldl_concat ..

end Step

end Watch

/-! ### What the moves say -/

/-- The bytes that a move writes to a channel. -/
def Move.bytesOn (c : Channel) : Move → List UInt8
  | .write c' chunk => if c' = c then chunk else []
  | _ => []

/-- The move ends a channel. -/
def Move.closes (c : Channel) : Move → Bool
  | .close c' => c' = c
  | _ => false

/-- The return code of an exit. -/
def Move.exitCode? : Move → Option Int
  | .exit code => some code
  | _ => none

/-- The move asks for the end. -/
def Move.isStop : Move → Bool
  | .stop => true
  | _ => false

/-- **What was written to a channel** before it ended. -/
def written (c : Channel) : List Move → List UInt8
  | [] => []
  | move :: moves => if move.closes c then [] else move.bytesOn c ++ written c moves

/-- **The channel has ended.** -/
def closed (c : Channel) (moves : List Move) : Bool := moves.any (·.closes c)

/-- **The return code of the process**: that of its first exit. -/
def exitCode? (moves : List Move) : Option Int := moves.findSome? Move.exitCode?

/-- **The end was asked for.** -/
def stopped (moves : List Move) : Bool := moves.any (·.isStop)

theorem written_append (c : Channel) (move : Move) : ∀ moves : List Move,
    written c (moves ++ [move]) =
      if closed c moves then written c moves else written c moves ++ move.bytesOn c
  | [] => by
    cases move with
    | close c' => by_cases hc : c' = c <;> simp [written, closed, Move.closes, Move.bytesOn, hc]
    | _ => simp [written, closed, Move.closes]
  | m :: moves => by
    have ih := written_append c move moves
    rw [List.cons_append, written, written, ih]
    by_cases hm : m.closes c = true
    · simp [hm, closed]
    · have hcons : closed c (m :: moves) = closed c moves := by simp [closed, hm]
      rw [if_neg hm, if_neg hm, hcons]
      split <;> simp

theorem closed_append (c : Channel) (moves : List Move) (move : Move) :
    closed c (moves ++ [move]) = (closed c moves || move.closes c) := by
  simp [closed]

theorem exitCode?_append (moves : List Move) (move : Move) :
    exitCode? (moves ++ [move]) = (exitCode? moves).or move.exitCode? := by
  rw [exitCode?, List.findSome?_append]
  cases h : move.exitCode? <;> simp [exitCode?, h]

theorem stopped_append (moves : List Move) (move : Move) :
    stopped (moves ++ [move]) = (stopped moves || move.isStop) := by
  simp [stopped]

/-! ### What a run keeps -/

/-- **The process is where the moves have brought it**, and so are the lines taken from its outputs. -/
structure Tracks (moves : List Move) (taken : Channel → List (List UInt8)) (p : Process) : Prop where
  returnCode : p.returnCode = exitCode? moves
  ended : ∀ c, (p.reader c).ended = closed c moves
  reading : ∀ c, Reading lineLimit (written c moves) (taken c) (p.reader c)

theorem Tracks.fresh (pid : Nat) : Tracks [] (fun _ => []) (.fresh pid) where
  returnCode := rfl
  ended c := by cases c <;> rfl
  reading c := by cases c <;> exact Reading.fresh _

/-- One move more: the exit, the ends and the readers have to follow it. -/
theorem Tracks.next {moves : List Move} {taken taken' : Channel → List (List UInt8)} {p p' : Process}
    (h : Tracks moves taken p) (move : Move)
    (hcode : p'.returnCode = p.returnCode.or move.exitCode?)
    (hended : ∀ c, (p'.reader c).ended = ((p.reader c).ended || move.closes c))
    (hreading : ∀ c bytes, Reading lineLimit bytes (taken c) (p.reader c) →
      Reading lineLimit (if (p.reader c).ended then bytes else bytes ++ move.bytesOn c) (taken' c)
        (p'.reader c)) : Tracks (moves ++ [move]) taken' p' where
  returnCode := by rw [hcode, h.returnCode, exitCode?_append]
  ended c := by rw [hended, h.ended, closed_append]
  reading c := by
    have hr := hreading c _ (h.reading c)
    rwa [h.ended, ← written_append] at hr

theorem Tracks.write {moves : List Move} {taken : Channel → List (List UInt8)} {p : Process}
    (h : Tracks moves taken p) (c : Channel) (chunk : List UInt8) :
    Tracks (moves ++ [.write c chunk]) taken (p.write c chunk) := by
  refine h.next _ ?_ (fun c' => ?_) fun c' bytes hr => ?_
  · exact (p.returnCode_setReader _ _).trans Option.or_none.symm
  · simp only [p.reader_write, Move.closes, Bool.or_false]
    split
    · next hc => rw [hc, LineReader.arrive]; split <;> rfl
    · rfl
  · rw [p.reader_write, Move.bytesOn]
    by_cases hc : c = c'
    · subst hc
      rw [if_pos rfl, if_pos rfl]
      exact hr.arrive chunk
    · rw [if_neg hc, if_neg (Ne.symm hc), List.append_nil, ite_self]
      exact hr

theorem Tracks.closeChannel {moves : List Move} {taken : Channel → List (List UInt8)} {p : Process}
    (h : Tracks moves taken p) (c : Channel) :
    Tracks (moves ++ [.close c]) taken (p.closeChannel c) := by
  refine h.next _ ?_ (fun c' => ?_) fun c' bytes hr => ?_
  · exact (p.returnCode_setReader _ _).trans Option.or_none.symm
  · rw [p.reader_closeChannel, Move.closes]
    by_cases hc : c = c'
    · subst hc; simp [LineReader.close]
    · simp [hc, Ne.symm hc]
  · simp only [p.reader_closeChannel, Move.bytesOn, List.append_nil, ite_self]
    split
    · next hc => rw [← hc]; exact hr.close
    · exact hr

theorem Tracks.exit {moves : List Move} {taken : Channel → List (List UInt8)} {p : Process}
    (h : Tracks moves taken p) (code : Int) : Tracks (moves ++ [.exit code]) taken (p.exit code) := by
  refine h.next _ ?_ (fun c => ?_) fun c bytes hr => ?_
  · cases hp : p.returnCode with
    | none => simp [Process.exit, Process.isAlive, hp, Move.exitCode?]
    | some code' => rw [p.exit_of_returnCode hp, hp]; rfl
  · simp only [p.reader_exit, Move.closes, Bool.or_false]
  · simp only [p.reader_exit, Move.bytesOn, List.append_nil, ite_self]
    exact hr

theorem Tracks.pumped {moves : List Move} {taken : Channel → List (List UInt8)} {p : Process}
    (h : Tracks moves taken p) (c : Channel) :
    Tracks (moves ++ [.pump c]) (fun c' => taken c' ++
      if c' = c then ((p.reader c).drain lineLimit).1.filterMap Piece.line? else [])
      (p.pumped c) := by
  refine h.next _ ?_ (fun c' => ?_) fun c' bytes hr => ?_
  · exact (p.returnCode_pumped c).trans Option.or_none.symm
  · simp only [p.reader_pumped, Move.closes, Bool.or_false]
    split
    · next hc => rw [hc, LineReader.drain_ended]
    · rfl
  · simp only [p.reader_pumped, Move.bytesOn, List.append_nil, ite_self]
    by_cases hc : c' = c
    · subst hc
      rw [if_pos rfl, if_pos rfl]
      exact hr.drain
    · rw [if_neg hc, if_neg hc, List.append_nil]
      exact hr

theorem Tracks.idle {moves : List Move} {taken : Channel → List (List UInt8)} {p : Process}
    (h : Tracks moves taken p) {move : Move} (hcode : move.exitCode? = none)
    (hcloses : ∀ c, move.closes c = false) (hbytes : ∀ c, move.bytesOn c = []) :
    Tracks (moves ++ [move]) taken p := by
  refine h.next _ ?_ (fun c => ?_) fun c bytes hr => ?_
  · rw [hcode, Option.or_none]
  · rw [hcloses, Bool.or_false]
  · rw [hbytes, List.append_nil, ite_self]
    exact hr

section Kept

variable {σ ε : Type} (listener : Channel → σ → String → Except ε (σ × List Effect))

namespace Watch

/-- What the calls were made for. -/
def purposes (w : Watch σ) : List Purpose := w.calls.map (·.purpose)

theorem purpose_eq (w : Watch σ) (n : Nat) : w.purpose n = w.purposes[n]? := by
  simp [purpose, purposes]

theorem ending_endCall_self {w : Watch σ} {n : Nat} {call : Call} (h : w.calls[n]? = some call)
    (e : Ending) : (w.endCall n e).ending n = call.ending.or (some e) := by
  simp [ending, endCall, h]

theorem resume_cases (w : Watch σ) (n : Nat) :
    w.resume n = w ∨ ∃ e, w.resume n = w.endCall n e := by
  unfold resume
  split
  · exact .inl rfl
  · exact .inr ⟨_, rfl⟩
  · exact .inr ⟨_, rfl⟩

theorem ended_endCall {w : Watch σ} {n : Nat} {e : Ending} (h : w.ending n = some e) (m : Nat)
    (e' : Ending) : (w.endCall m e').ending n = some e := by
  obtain ⟨call, hcall, he⟩ := Option.bind_eq_some_iff.mp h
  by_cases hm : m = n
  · subst hm
    rw [ending_endCall_self hcall, he]
    rfl
  · simpa [ending, endCall, List.getElem?_modify, hm] using h

theorem ended_resume {w : Watch σ} {n : Nat} {e : Ending} (h : w.ending n = some e) (m : Nat) :
    (w.resume m).ending n = some e := by
  rcases w.resume_cases m with hr | ⟨e', hr⟩
  · rwa [hr]
  · rw [hr]
    exact ended_endCall h m e'

/-- **A call ends once.** -/
theorem ended_step {ownGroup : Bool} {w : Watch σ} {n : Nat} {e : Ending} (h : w.ending n = some e)
    (move : Move) : (w.step listener ownGroup move).ending n = some e := by
  have happend : ∀ call, (w.calls ++ [call])[n]?.bind (·.ending) = some e := by
    intro call
    have hn : n < w.calls.length := by
      by_contra hn
      rw [ending, List.getElem?_eq_none (by omega)] at h
      cases h
    rw [List.getElem?_append_left hn]
    exact h
  cases move with
  | wait => exact happend _
  | stop => exact happend _
  | resume m => exact ended_resume h m
  | expire m =>
    simp only [step]
    split
    · exact ended_endCall h m _
    · exact h
  | _ => exact h

theorem linesOf_passed (w : Watch σ) (c c' : Channel) (taken : List (List UInt8)) :
    ((w.passed ++ taken.map (c, ·)).filter (·.1 = c')).map Prod.snd =
      w.linesOf c' ++ if c' = c then taken else [] := by
  rw [List.filter_append, List.map_append, linesOf, List.filter_map]
  by_cases hc : c' = c
  · subst hc
    simp [Function.comp_def]
  · simp [Function.comp_def, hc, Ne.symm hc]

end Watch

/-- **What a run keeps**: the session and its listeners are where the moves have brought them. -/
structure Kept (state : σ) (moves : List Move) (w : Watch σ) : Prop where
  attached : w.session.attached = true
  sound : w.session.Sound
  stopRequested : w.session.stopRequested = stopped moves
  process : ∃ p, w.session.process = some p ∧ Tracks moves w.linesOf p
  handed : w.state = w.passed.foldl (fun s l => hand (listener l.1) s (lineText l.2)) state
  stops : .stop ∈ w.purposes → stopped moves = true

variable {listener} {state : σ} {moves : List Move} {w : Watch σ}

theorem Kept.start (listener : Channel → σ → String → Except ε (σ × List Effect)) (command : String)
    (directory : Option String) (pid : Nat) (state : σ) :
    Kept listener state [] (.start command directory pid state) where
  attached := rfl
  sound := (sound_launch command directory pid).attach
  stopRequested := rfl
  process := ⟨.fresh pid, rfl, Tracks.fresh pid⟩
  handed := rfl
  stops h := by cases h

theorem Kept.onProcess (h : Kept listener state moves w) {move : Move} (hstop : move.isStop = false)
    {f : Process → Process} (hsound : (w.session.mapProcess f).Sound)
    (hf : ∀ p, Tracks moves w.linesOf p → Tracks (moves ++ [move]) w.linesOf (f p)) :
    Kept listener state (moves ++ [move]) { w with session := w.session.mapProcess f } where
  attached := h.attached
  sound := hsound
  stopRequested := by
    rw [stopped_append, hstop, Bool.or_false]
    exact h.stopRequested
  process := by
    obtain ⟨p, hp, ht⟩ := h.process
    exact ⟨f p, congrArg (Option.map f) hp, hf p ht⟩
  handed := h.handed
  stops hp := by
    rw [stopped_append, h.stops hp, Bool.true_or]

theorem Kept.pump (h : Kept listener state moves w) (ownGroup : Bool) (c : Channel) :
    Kept listener state (moves ++ [.pump c]) (w.step listener ownGroup (.pump c)) := by
  obtain ⟨p, hp, ht⟩ := h.process
  have htakes : w.session.takes c = ((p.reader c).drain lineLimit).1 := by
    simp [takes, hp, h.attached]
  have hpumped : (w.session.pumped c).process = some (p.pumped c) := by
    simp [Session.pumped, h.attached, mapProcess, hp]
  simp only [Watch.step, pump_eq]
  constructor
  · exact (attached_pumped _ c).trans h.attached
  · exact h.sound.pumped c
  · rw [stopped_append]
    exact (stopRequested_pumped _ c).trans (h.stopRequested.trans (Bool.or_false _).symm)
  · have ht' := ht.pumped c
    refine ⟨p.pumped c, hpumped, ?_⟩
    rw [← htakes] at ht'
    convert ht' using 1
    funext c'
    exact w.linesOf_passed c c' _
  · rw [LineReader.deliverFrom_eq_foldl, List.foldl_append, ← h.handed, List.foldl_map, List.foldl_map]
  · intro hstop
    rw [stopped_append, h.stops hstop, Bool.true_or]

theorem Kept.idle (h : Kept listener state moves w) {move : Move} {w' : Watch σ}
    (htracks : ∀ p, Tracks moves w.linesOf p → Tracks (moves ++ [move]) w.linesOf p)
    (hattached : w'.session.attached = w.session.attached) (hsound : w'.session.Sound)
    (hrequested : w'.session.stopRequested = (w.session.stopRequested || move.isStop))
    (hprocess : w'.session.process = w.session.process) (hstate : w'.state = w.state)
    (hpassed : w'.passed = w.passed) (hstops : .stop ∈ w'.purposes → .stop ∈ w.purposes ∨ move.isStop) :
    Kept listener state (moves ++ [move]) w' where
  attached := hattached.trans h.attached
  sound := hsound
  stopRequested := by rw [hrequested, h.stopRequested, stopped_append]
  process := by
    obtain ⟨p, hp, ht⟩ := h.process
    have hlines : w'.linesOf = w.linesOf := by
      funext c
      rw [Watch.linesOf, hpassed]
      rfl
    rw [hlines]
    exact ⟨p, hprocess.trans hp, htracks p ht⟩
  handed := by rw [hstate, hpassed]; exact h.handed
  stops hp := by
    rw [stopped_append]
    rcases hstops hp with hp | hp
    · rw [h.stops hp, Bool.true_or]
    · rw [hp, Bool.or_true]

end Kept

end Session

end GhciRelay
