import GhciRelay.Proofs.ByteAccount
import GhciRelay.Proofs.Lifecycle

/-!
# From the process to the listener

What a process writes is followed through a run of the server, on each of its channels. What arrives
is held by the reader of the channel (`reader_deed`), and what is handed on is taken from there: along
every run it is cut off what has arrived, and nothing of it is lost (`hasTaken_run`). What is handed on
is passed to the listener of the channel, one call for each line (`passedOn_run`).

Both hold of a process from the start on, also as long as nobody is attached to its session.
-/

namespace GhciRelay.Server

open LineReader (Fates Taken)

variable {clock : Nat → Int}

/-! ### What arrives and what is handed on -/

/-- The channel of a process takes what is written to it. -/
def isOpen (s : Server) (pid : Nat) (c : Channel) : Bool :=
  match s.sessionOf pid with
  | some x => x.isOpen c
  | none => false

/-- What arrives on a channel of a process with a move. -/
def arrival (s : Server) (pid : Nat) (c : Channel) : Move → List UInt8
  | .write q d chunk => if q = pid ∧ d = c ∧ s.isOpen pid c = true then chunk else []
  | _ => []

/-- The pieces of a channel of a process that a move hands on to the aggregator. -/
def delivery (s : Server) (pid : Nat) (c : Channel) : Move → List Piece
  | .pump q d => if q = pid ∧ d = c then s.taken pid c else []
  | _ => []

section Run

variable (clock) (pid : Nat) (c : Channel)

/-- **What arrives** on a channel of a process in a run. -/
def arrived (s : Server) : List Move → List UInt8
  | [] => []
  | m :: moves =>
    s.arrival pid c m ++
      match s.step clock m with
      | none => []
      | some (s', _) => s'.arrived moves

/-- **What is handed on** of a channel of a process in a run, piece by piece. -/
def handedOn (s : Server) : List Move → List Piece
  | [] => []
  | m :: moves =>
    s.delivery pid c m ++
      match s.step clock m with
      | none => []
      | some (s', _) => s'.handedOn moves

end Run

theorem arrived_cons {s : Server} {m : Move} {t : Turn} (h : s.step clock m = some t) (pid : Nat)
    (c : Channel) (moves : List Move) :
    s.arrived clock pid c (m :: moves) = s.arrival pid c m ++ t.1.arrived clock pid c moves := by
  rw [arrived, h]

theorem handedOn_cons {s : Server} {m : Move} {t : Turn} (h : s.step clock m = some t) (pid : Nat)
    (c : Channel) (moves : List Move) :
    s.handedOn clock pid c (m :: moves) = s.delivery pid c m ++ t.1.handedOn clock pid c moves := by
  rw [handedOn, h]

theorem followed_append {xs : List Move} {s : Server} {t : Turn} (h : s.run clock xs = some t)
    (pid : Nat) (c : Channel) (ys : List Move) :
    s.arrived clock pid c (xs ++ ys) =
        s.arrived clock pid c xs ++ t.1.arrived clock pid c ys ∧
      s.handedOn clock pid c (xs ++ ys) =
        s.handedOn clock pid c xs ++ t.1.handedOn clock pid c ys := by
  induction xs generalizing s t with
  | nil =>
    cases h
    exact ⟨rfl, rfl⟩
  | cons m xs ih =>
    obtain ⟨t₁, t₂, hs, hr, rfl⟩ := run_cons.mp h
    obtain ⟨ha, hh⟩ := ih hr
    rw [List.cons_append, arrived_cons hs, arrived_cons hs, handedOn_cons hs, handedOn_cons hs, ha, hh]
    exact ⟨(List.append_assoc ..).symm, (List.append_assoc ..).symm⟩

/-- **The reader of a channel after a move.** Only the channels of an attached session are pumped. -/
def nextReader (pid : Nat) (c : Channel) (attached : Bool) (r : LineReader) : Move → LineReader
  | .write q d chunk => if q = pid ∧ d = c then r.arrive chunk else r
  | .close q d => if q = pid ∧ d = c then r.close else r
  | .pump q d => if q = pid ∧ d = c ∧ attached = true then (r.drain Session.lineLimit).2 else r
  | _ => r

theorem reader_deed (s : Server) (m : Move) (pid : Nat) {x : Session} {p : Process}
    (hp : x.process = some p) (c : Channel) : ∃ p', (s.deed m pid x).process = some p' ∧
      p'.reader c = nextReader pid c x.attached (p.reader c) m := by
  have hsame : ∀ x' : Session, x'.process = x.process →
      ∃ p', x'.process = some p' ∧ p'.reader c = p.reader c :=
    fun x' h' => ⟨p, h'.trans hp, rfl⟩
  -- what a process does to the reader of one channel
  have hmap : ∀ (f : Process → Process) (g : LineReader → LineReader) (q : Nat) (d : Channel),
      (∀ c', (f p).reader c' = if c' = d then g (p.reader d) else p.reader c') →
      ∃ p', (if q = pid then x.mapProcess f else x).process = some p' ∧
        p'.reader c = if q = pid ∧ d = c then g (p.reader c) else p.reader c := by
    intro f g q d hf
    by_cases hq : q = pid
    · refine ⟨f p, by simp [hq, Session.mapProcess, hp], ?_⟩
      rw [hf c]
      by_cases hd : d = c
      · simp [hq, hd]
      · simp [hd, Ne.symm hd]
    · exact ⟨p, by simp [hq, hp], by simp [hq]⟩
  cases m with
  | write q d chunk => exact hmap _ (·.arrive chunk) q d fun c' => p.reader_write d c' chunk
  | close q d => exact hmap _ (·.close) q d fun c' => p.reader_closeChannel d c'
  | pump q d =>
    simp only [deed, Session.pumped, nextReader]
    cases x.attached with
    | true =>
      simp only [if_true, and_true]
      exact hmap _ (fun r => (r.drain Session.lineLimit).2) q d fun c' => p.reader_pumped d c'
    | false =>
      simp only [Bool.false_eq_true, and_false, if_false, ite_self]
      exact hsame x rfl
  | exit q code =>
    simp only [deed]
    split
    · exact ⟨p.exit code, congrArg (Option.map _) hp, p.reader_exit code c⟩
    · exact hsame x rfl
  | finish q =>
    refine hsame _ ?_
    by_cases hq : q = pid <;> simp [deed, hq, x.process_finish]
  | grant =>
    refine hsame _ ?_
    by_cases hc : s.current = some pid <;> simp [deed, hc, x.process_requestStop]
  | resume =>
    refine hsame _ ?_
    simp only [deed]
    split
    · split
      · exact x.process_attach
      · rfl
    · rfl
  | _ => exact hsame x rfl

/-- **What was handed on so far** of a channel of a process are pieces of what has arrived on it. A
process without a session has sent nothing yet. -/
def HasTaken (s : Server) (pid : Nat) (c : Channel) (bytes : List UInt8) (pieces : List Piece) :
    Prop :=
  match s.sessionOf pid with
  | some x => ∃ p, x.process = some p ∧ Taken Session.lineLimit bytes pieces (p.reader c)
  | none => bytes = [] ∧ pieces = []

theorem taken_next {s : Server} {pid : Nat} {x : Session} {p : Process} {c : Channel}
    (hx : s.sessionOf pid = some x) (hp : x.process = some p) {bytes : List UInt8}
    {pieces : List Piece} (h : Taken Session.lineLimit bytes pieces (p.reader c)) (m : Move) :
    Taken Session.lineLimit (bytes ++ s.arrival pid c m) (pieces ++ s.delivery pid c m)
      (nextReader pid c x.attached (p.reader c) m) := by
  have ho : s.isOpen pid c = !(p.reader c).ended := by rw [isOpen, hx]; simp [Session.isOpen, hp]
  have ht : s.taken pid c =
      if x.attached then ((p.reader c).drain Session.lineLimit).1 else [] := by
    rw [taken, hx]
    simp [Session.takes, hp]
  cases m with
  | write q d chunk =>
    have ha := h.arrive chunk
    by_cases hq : q = pid ∧ d = c
    · cases he : (p.reader c).ended <;> simpa [arrival, delivery, nextReader, hq, ho, he] using ha
    · have hn : ¬ (q = pid ∧ d = c ∧ s.isOpen pid c = true) := fun hn => hq ⟨hn.1, hn.2.1⟩
      simpa [arrival, delivery, nextReader, if_neg hq, if_neg hn] using h
  | close q d =>
    simp only [arrival, delivery, nextReader, List.append_nil]
    split
    · exact h.close
    · exact h
  | pump q d =>
    by_cases hq : q = pid ∧ d = c
    · cases ha : x.attached with
      | true => simpa [arrival, delivery, nextReader, hq, ht, ha] using h.drain
      | false => simpa [arrival, delivery, nextReader, hq, ht, ha] using h
    · have hn : ¬ (q = pid ∧ d = c ∧ x.attached = true) := fun hn => hq ⟨hn.1, hn.2.1⟩
      simpa [arrival, delivery, nextReader, if_neg hq, if_neg hn] using h
  | _ => simpa [arrival, delivery, nextReader] using h

/-- **One move** takes nothing but what has arrived, and loses nothing of it. -/
theorem hasTaken_step {s : Server} {m : Move} {t : Turn} (h : s.step clock m = some t) {pid : Nat}
    {c : Channel} {bytes : List UInt8} {pieces : List Piece} (ht : s.HasTaken pid c bytes pieces) :
    t.1.HasTaken pid c (bytes ++ s.arrival pid c m) (pieces ++ s.delivery pid c m) := by
  unfold HasTaken at ht
  cases hx : s.sessionOf pid with
  | some x =>
    rw [hx] at ht
    obtain ⟨p, hp, ht⟩ := ht
    obtain ⟨p', hp', hr⟩ := reader_deed s m pid hp c
    rw [HasTaken, step_deed h hx]
    exact ⟨p', hp', hr ▸ taken_next hx hp ht m⟩
  | none =>
    rw [hx] at ht
    obtain ⟨rfl, rfl⟩ := ht
    have ho : s.isOpen pid c = false := by rw [isOpen, hx]
    have hn : s.taken pid c = [] := by rw [taken, hx]
    have ha : s.arrival pid c m = [] := by cases m <;> simp [arrival, ho]
    have hd : s.delivery pid c m = [] := by cases m <;> simp [delivery, hn]
    rw [ha, hd, HasTaken]
    cases hx' : t.1.sessionOf pid with
    | none => exact ⟨rfl, rfl⟩
    | some x' =>
      rcases step_cases h hx' with ⟨x, hx₀, -⟩ | ⟨-, -, k, x, y, -, rfl⟩
      · rw [hx] at hx₀; cases hx₀
      · exact ⟨.fresh pid, rfl, by cases c <;> exact Taken.fresh _⟩

/-- **A run** takes nothing but what has arrived, and loses nothing of it. -/
theorem hasTaken_run (pid : Nat) (c : Channel) : ∀ (moves : List Move) {s : Server} {t : Turn}
    {bytes : List UInt8} {pieces : List Piece}, s.run clock moves = some t →
      s.HasTaken pid c bytes pieces →
      t.1.HasTaken pid c (bytes ++ s.arrived clock pid c moves)
        (pieces ++ s.handedOn clock pid c moves)
  | [], s, t, bytes, pieces, h, ht => by
    cases h
    simpa [arrived, handedOn] using ht
  | m :: moves, s, t, bytes, pieces, h, ht => by
    obtain ⟨t₁, t₂, hs, hr, rfl⟩ := run_cons.mp h
    have ht' := hasTaken_run pid c moves hr (hasTaken_step hs ht)
    rwa [List.append_assoc, List.append_assoc, ← arrived_cons hs, ← handedOn_cons hs] at ht'

/-! ### What the listeners are told -/

/-- **The pieces of a channel of a process are passed on** along a run. Whenever the channel is
pumped, its listener is told what was taken, piece after piece: it is called once for each line, with
the text of the line, and what comes of that is all that comes of the move. -/
inductive PassedOn (clock : Nat → Int) (pid : Nat) (c : Channel) :
    Server → List Move → List Piece → Prop
  | nothing (s : Server) : PassedOn clock pid c s [] []
  | aside {s : Server} {m : Move} {t : Turn} {moves : List Move} {pieces : List Piece}
    (other : m ≠ .pump pid c) (step : s.step clock m = some t)
    (more : PassedOn clock pid c t.1 moves pieces) : PassedOn clock pid c s (m :: moves) pieces
  | pumped {s : Server} {t : Turn} {moves : List Move} {now later : List Piece}
    (step : s.step clock (.pump pid c) = some t)
    (told : Fates c (listener c) s.aggregator now t.1.aggregator t.2)
    (more : PassedOn clock pid c t.1 moves later) :
    PassedOn clock pid c s (.pump pid c :: moves) (now ++ later)

theorem delivery_pump (s : Server) (pid : Nat) (c : Channel) :
    s.delivery pid c (.pump pid c) = s.taken pid c :=
  if_pos ⟨rfl, rfl⟩

theorem delivery_of_ne (s : Server) {pid : Nat} {c : Channel} {m : Move} (hm : m ≠ .pump pid c) :
    s.delivery pid c m = [] := by
  cases m with
  | pump q d => exact if_neg fun hq => hm (by rw [hq.1, hq.2])
  | _ => rfl

/-- **Along every run** what is handed on is passed on. -/
theorem passedOn_run (pid : Nat) (c : Channel) : ∀ (moves : List Move) {s : Server} {t : Turn},
    s.run clock moves = some t → PassedOn clock pid c s moves (s.handedOn clock pid c moves)
  | [], s, _, _ => .nothing s
  | m :: moves, s, t, h => by
    obtain ⟨t₁, t₂, hs, hr, rfl⟩ := run_cons.mp h
    have hlater := passedOn_run pid c moves hr
    rw [handedOn_cons hs]
    by_cases hm : m = .pump pid c
    · subst hm
      obtain rfl := Option.some.inj hs
      rw [delivery_pump]
      refine .pumped hs ?_ hlater
      rw [(pump_delivers s pid c).1, (pump_delivers s pid c).2]
      exact LineReader.fates_deliverFrom _ _
    · rw [delivery_of_ne s hm]
      exact .aside hm hs hlater

/-- **A run has delivered a channel** of a process: what was handed on was passed to the listener and is
all that ever arrived. No line is missing that is not too long, and if none is too long the lines are
all there is. -/
structure Delivered (clock : Nat → Int) (s : Server) (moves : List Move) (pid : Nat) (c : Channel) :
    Prop where
  passed : PassedOn clock pid c s moves (s.handedOn clock pid c moves)
  bytes : (s.handedOn clock pid c moves).flatMap Piece.bytes = s.arrived clock pid c moves
  heard : LineReader.Heard Session.lineLimit (s.arrived clock pid c moves)
    ((s.handedOn clock pid c moves).filterMap Piece.line?)

end GhciRelay.Server
