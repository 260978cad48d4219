import GhciRelay.Proofs.Pumping

/-!
# The account of an output

The pump is a loop. In each round it reads once: a line is handed on, and too many bytes are dropped
with a warning. When nothing can be read it waits for its next turn, and when the output has ended
it returns (`Loop`). A round that fails does not end the loop; it comes to an end because every read
takes at least one byte out of the buffer (`readLine_takes`), also where bytes are dropped.

What was taken, what is in the buffer and what still arrives are always the whole output, in order.
A round moves bytes from the second part to the first, waiting moves bytes from the third to the
second (`untilTurn_bytes`), and when the loop returns only the first part is left (`Loop.bytes`).
-/

namespace GhciRelay

/-- **A segment of an output** as it may be taken: at most `limit` bytes with or without a line feed
behind them are a line, more than that are too many. -/
inductive Piece.Proper (limit : Nat) : Piece → Prop
  | line {body : List UInt8} (unbroken : 10 ∉ body) (short : body.length ≤ limit) :
    Proper limit (.line (body ++ [10]))
  | last {body : List UInt8} (nonempty : body ≠ []) (unbroken : 10 ∉ body)
    (short : body.length ≤ limit) : Proper limit (.line body)
  | tooLong {body : List UInt8} (unbroken : 10 ∉ body) (long : limit < body.length) :
    Proper limit (.tooLong (body ++ [10]))
  | overflow {body : List UInt8} (unbroken : 10 ∉ body) (long : limit < body.length) :
    Proper limit (.tooLong body)

theorem Piece.Proper.length_pos {limit : Nat} {piece : Piece} (h : piece.Proper limit) :
    0 < piece.bytes.length := by
  cases h with
  | line => simp [Piece.bytes]
  | last nonempty => exact List.length_pos_iff.mpr nonempty
  | tooLong => simp [Piece.bytes]
  | overflow _ long => exact Nat.zero_lt_of_lt long

namespace LineReader

open GhciRelay.Text

/-! ### One read -/

/-- **What one read takes** stands at the front of the buffer and is a proper segment. -/
theorem readLine_takes {limit : Nat} {r r' : LineReader} {piece : Piece}
    (h : r.readLine limit = some (piece, r')) :
    piece.Proper limit ∧ piece.bytes ++ r'.buffer = r.buffer ∧ r'.ended = r.ended := by
  obtain ⟨buffer, ended⟩ := r
  by_cases hmem : 10 ∈ buffer
  · obtain ⟨body, rest, rfl, hn⟩ := List.eq_append_cons_of_mem hmem
    rw [readLine_lineFeed limit hn] at h
    cases h
    split
    · next hl => exact ⟨.line hn hl, by simp [Piece.bytes], rfl⟩
    · next hl => exact ⟨.tooLong hn (Nat.not_le.mp hl), by simp [Piece.bytes], rfl⟩
  · rw [readLine_of_notMem limit hmem] at h
    split_ifs at h with hl he
    · cases h
      exact ⟨.overflow hmem hl, List.append_nil _, rfl⟩
    · cases h
      have hne : buffer ≠ [] := by
        rintro rfl
        simp at he
      exact ⟨.last hne hmem (Nat.not_lt.mp hl), List.append_nil _, rfl⟩

theorem buffer_of_readLine {limit : Nat} {r : LineReader} (h : r.readLine limit = none)
    (he : r.ended = true) : r.buffer = [] := by
  obtain ⟨buffer, ended⟩ := r
  cases he
  by_cases hmem : 10 ∈ buffer
  · obtain ⟨body, rest, rfl, hn⟩ := List.eq_append_cons_of_mem hmem
    rw [readLine_lineFeed limit hn] at h
    cases h
  · rw [readLine_of_notMem limit hmem] at h
    split_ifs at h with hl hb
    simpa using hb

/-! ### Waiting -/

/-- **Waiting for the next turn**: the reader as it is then, and what can still happen. If no turn
is left, the output ends, and that is a turn too. -/
def untilTurn (r : LineReader) : List Move → LineReader × List Move
  | [] => (r.close, [])
  | .chunk bytes :: moves => untilTurn (r.arrive bytes) moves
  | .turn :: moves => (r, moves)

/-- **Nothing gets lost while the pump waits.** -/
theorem untilTurn_bytes : ∀ (moves : List Move) {r : LineReader}, r.ended = false →
    (untilTurn r moves).1.buffer ++ sent (untilTurn r moves).2 = r.buffer ++ sent moves
  | [], _, _ => rfl
  | .chunk bytes :: moves, r, h => by
    have ih := untilTurn_bytes moves (r := r.arrive bytes) (by rw [arrive_of_open h])
    rw [untilTurn, sent, ih, arrive_of_open h, List.append_assoc]
  | .turn :: _, _, _ => rfl

theorem untilTurn_ended : ∀ (moves : List Move) {r : LineReader}, r.ended = false →
    (untilTurn r moves).1.ended = true → (untilTurn r moves).2 = []
  | [], _, _, _ => rfl
  | .chunk bytes :: moves, r, h, he =>
    untilTurn_ended moves (r := r.arrive bytes) (by rw [arrive_of_open h]) he
  | .turn :: _, _, h, he => by
    rw [untilTurn, h] at he
    cases he

/-! ### The loop -/

section Handler

variable {σ ε : Type} (channel : Channel) (handler : σ → String → Except ε (σ × List Effect))

/-- **What becomes of a segment.** For a line the handler is called once, with the text that the
bytes mean, without its line end; for too many bytes there is one warning. -/
inductive Fate (state : σ) : Piece → σ → List Effect → Prop
  | handled {bytes : List UInt8} {text : List Char} {state' : σ} {effects : List Effect}
    (decoded : Utf8.Decodes bytes text)
    (answer : handler state (lineBody text) = .ok (state', effects)) :
    Fate state (.line bytes) state' effects
  | failed {bytes : List UInt8} {text : List Char} {e : ε} (decoded : Utf8.Decodes bytes text)
    (answer : handler state (lineBody text) = .error e) :
    Fate state (.line bytes) state [.note (handlerNote channel)]
  | dropped {bytes : List UInt8} : Fate state (.tooLong bytes) state [.note (tooLongNote channel)]

/-- **What becomes of segments** that are taken one after the other. -/
inductive Fates : σ → List Piece → σ → List Effect → Prop
  | nothing (state : σ) : Fates state [] state []
  | next {state state' state'' : σ} {piece : Piece} {pieces : List Piece}
    {effects later : List Effect} (fate : Fate channel handler state piece state' effects)
    (more : Fates state' pieces state'' later) :
    Fates state (piece :: pieces) state'' (effects ++ later)

/-- **The loop of the pump**, from a turn to its return: the segments that it takes, one in each
round, and what comes of handing them on. -/
inductive Loop (limit : Nat) :
    LineReader → σ → List Move → List Piece → σ → List Effect → Prop
  | round {r r' : LineReader} {state state' state'' : σ} {moves : List Move} {piece : Piece}
    {pieces : List Piece} {effects later : List Effect}
    (read : r.readLine limit = some (piece, r'))
    (fate : Fate channel handler state piece state' effects)
    (more : Loop limit r' state' moves pieces state'' later) :
    Loop limit r state moves (piece :: pieces) state'' (effects ++ later)
  | wait {r : LineReader} {state state' : σ} {moves : List Move} {pieces : List Piece}
    {effects : List Effect} (nothing : r.readLine limit = none) (running : r.ended = false)
    (more : Loop limit (untilTurn r moves).1 state (untilTurn r moves).2 pieces state' effects) :
    Loop limit r state moves pieces state' effects
  | done {r : LineReader} {state : σ} (nothing : r.readLine limit = none) (ended : r.ended = true) :
    Loop limit r state [] [] state []

variable {channel handler}

theorem fate_deliver (state : σ) (piece : Piece) :
    Fate channel handler state piece (deliver channel handler state piece).1
      (deliver channel handler state piece).2 := by
  cases piece with
  | tooLong bytes => exact .dropped
  | line bytes =>
    have hdecoded := Utf8.decodes_decode bytes
    cases h : handler state (lineText bytes) with
    | error e =>
      simp only [deliver, h]
      exact .failed hdecoded h
    | ok answer =>
      simp only [deliver, h]
      exact .handled hdecoded h

theorem fates_deliverFrom : ∀ (pieces : List Piece) (state : σ),
    Fates channel handler state pieces (deliverFrom channel handler state [] pieces).1
      (deliverFrom channel handler state [] pieces).2
  | [], state => .nothing state
  | piece :: pieces, state => by
    simp only [deliverFrom]
    rw [deliverFrom_done]
    simp only [List.append_nil, List.reverse_reverse]
    exact .next (fate_deliver state piece) (fates_deliverFrom pieces _)

theorem Fate.eq_deliver {state state' : σ} {piece : Piece} {effects : List Effect}
    (h : Fate channel handler state piece state' effects) :
    deliver channel handler state piece = (state', effects) := by
  cases h with
  | handled decoded answer =>
    obtain rfl := Utf8.decodes_iff.mp decoded
    change handler state (lineText _) = _ at answer
    simp only [deliver, answer]
  | failed decoded answer =>
    obtain rfl := Utf8.decodes_iff.mp decoded
    change handler state (lineText _) = _ at answer
    simp only [deliver, answer]
  | dropped => rfl

namespace Loop

variable {limit : Nat} {r : LineReader} {state state' : σ} {moves : List Move} {pieces : List Piece}
  {effects : List Effect}

/-- **Every byte is accounted for**: the segments are what was in the buffer and all that arrives.
-/
theorem bytes (h : Loop channel handler limit r state moves pieces state' effects)
    (hm : r.ended = true → moves = []) : pieces.flatMap Piece.bytes = r.buffer ++ sent moves := by
  -- along the loop; that nothing arrives after the end is carried from round to round
  induction h with
  | @round r r' _ _ _ moves piece pieces _ _ read _ _ ih =>
    obtain ⟨-, hbytes, hended⟩ := readLine_takes read
    have hm' : r'.ended = true → moves = [] := fun he => hm (hended ▸ he)
    rw [List.flatMap_cons, ih hm', ← List.append_assoc, hbytes]
  | wait _ running _ ih => rw [ih (untilTurn_ended _ running), untilTurn_bytes _ running]
  | done nothing ended =>
    rw [buffer_of_readLine nothing ended, sent, List.flatMap_nil, List.nil_append]

theorem proper (h : Loop channel handler limit r state moves pieces state' effects) :
    ∀ piece ∈ pieces, piece.Proper limit := by
  induction h with
  | round read _ _ ih => exact List.forall_mem_cons.mpr ⟨(readLine_takes read).1, ih⟩
  | wait _ _ _ ih => exact ih
  | done => exact List.forall_mem_nil _

theorem unique (h : Loop channel handler limit r state moves pieces state' effects)
    {pieces' : List Piece} {state'' : σ} {effects' : List Effect}
    (h' : Loop channel handler limit r state moves pieces' state'' effects') :
    pieces' = pieces ∧ state'' = state' ∧ effects' = effects := by
  induction h generalizing pieces' state'' effects' with
  | round read fate _ ih =>
    cases h' with
    | round read' fate' more' =>
      cases read.symm.trans read'
      cases fate.eq_deliver.symm.trans fate'.eq_deliver
      obtain ⟨rfl, rfl, rfl⟩ := ih more'
      exact ⟨rfl, rfl, rfl⟩
    | wait nothing => cases read.symm.trans nothing
    | done nothing => cases read.symm.trans nothing
  | wait nothing running _ ih =>
    cases h' with
    | round read' => cases nothing.symm.trans read'
    | wait _ _ more' => exact ih more'
    | done _ ended => cases running.symm.trans ended
  | done nothing ended =>
    cases h' with
    | round read' => cases nothing.symm.trans read'
    | wait _ running => cases running.symm.trans ended
    | done => exact ⟨rfl, rfl, rfl⟩

theorem reads {r' : LineReader} {read : List Piece} {between : σ} {now : List Effect}
    (h : ReadsAll limit r read r') (fates : Fates channel handler state read between now)
    (more : Loop channel handler limit r' between moves pieces state' effects) :
    Loop channel handler limit r state moves (read ++ pieces) state' (now ++ effects) := by
  induction h generalizing state now with
  | stop =>
    cases fates
    exact more
  | read next _ ih =>
    cases fates with
    | next fate later =>
      rw [List.append_assoc]
      exact .round next fate (ih later more)

end Loop

theorem ReadsAll.nothing {limit : Nat} {r r' : LineReader} {pieces : List Piece}
    (h : ReadsAll limit r pieces r') : r'.readLine limit = none := by
  induction h with
  | stop nothing => exact nothing
  | read _ _ ih => exact ih

/-- **The loop returns**, however the chunks arrive and whenever the pump gets its turn. -/
theorem loop_takenFrom (limit : Nat) : ∀ (moves : List Move) {r : LineReader} (state : σ),
    r.ended = false →
    Loop channel handler limit (untilTurn r moves).1 state (untilTurn r moves).2
      (takenFrom limit r moves) (deliverFrom channel handler state [] (takenFrom limit r moves)).1
      (deliverFrom channel handler state [] (takenFrom limit r moves)).2
  | [], r, state, _ => by
    have hreads := readsAll_drain limit r.close
    have hended : (r.close.drain limit).2.ended = true := drain_ended limit r.close
    have hloop : Loop channel handler limit r.close state [] ((r.close.drain limit).1 ++ []) _ _ :=
      .reads hreads (fates_deliverFrom _ state) (.done hreads.nothing hended)
    rwa [List.append_nil, List.append_nil] at hloop
  | .chunk bytes :: moves, r, state, h =>
    loop_takenFrom limit moves (r := r.arrive bytes) state (by rw [arrive_of_open h])
  | .turn :: moves, r, state, h => by
    have hreads := readsAll_drain limit r
    have hended : (r.drain limit).2.ended = false := (drain_ended limit r).trans h
    simp only [takenFrom, untilTurn, deliverFrom_append]
    exact Loop.reads hreads (fates_deliverFrom _ state)
      (.wait hreads.nothing hended (loop_takenFrom limit moves _ hended))

end Handler

theorem length_le_of_proper {limit : Nat} : ∀ {pieces : List Piece},
    (∀ piece ∈ pieces, piece.Proper limit) → pieces.length ≤ (pieces.flatMap Piece.bytes).length
  | [], _ => Nat.le_refl _
  | piece :: pieces, h => by
    have hpiece := (h piece List.mem_cons_self).length_pos
    have hpieces := length_le_of_proper fun p hp => h p (List.mem_cons_of_mem piece hp)
    rw [List.flatMap_cons, List.length_append, List.length_cons]
    omega

/-- **The pump accounts for every byte.** For every limit and every output, however it arrives, the
output is a row of segments, each of them a line of at most `limit` bytes, with or without its line
feed, or more bytes than that. Whatever the handler does, the loop of the pump returns, and can go
no other way: round by round it takes the next segment, passes a line on once, as the text that its
bytes mean without the line end, and drops too many bytes with one warning. There are at most as
many rounds as bytes. (A handler that changes its state and then fails is one that answers with the
changed state and notes the failure itself.) -/
theorem pumpAll_accounts_for_bytes (limit : Nat) (moves : List Move) :
    ∃ segments : List Piece,
      segments.flatMap Piece.bytes = sent moves ∧
      (∀ segment ∈ segments, segment.Proper limit) ∧
      segments.length ≤ (sent moves).length ∧
      ∀ {σ ε : Type} (channel : Channel) (handler : σ → String → Except ε (σ × List Effect))
        (state : σ), ∃ state' effects,
          pumpAll channel handler limit state moves = (⟨[], true⟩, state', effects) ∧
          Loop channel handler limit fresh state moves segments state' effects ∧
          ∀ segments' state'' effects',
            Loop channel handler limit fresh state moves segments' state'' effects' →
              segments' = segments ∧ state'' = state' ∧ effects' = effects := by
  have hfresh : fresh.readLine limit = none := by simp [readLine, fresh]
  have hloop {σ ε : Type} (channel : Channel) (handler : σ → String → Except ε (σ × List Effect))
      (state : σ) : Loop channel handler limit fresh state moves (takenFrom limit fresh moves)
        (deliverFrom channel handler state [] (takenFrom limit fresh moves)).1
        (deliverFrom channel handler state [] (takenFrom limit fresh moves)).2 :=
    .wait hfresh rfl (loop_takenFrom limit moves state rfl)
  -- the segments do not depend on the handler, so any one will do to learn about them
  have hany := hloop .stdout (fun state _ => (.ok (state, []) : Except Unit _)) ()
  have hbytes : (takenFrom limit fresh moves).flatMap Piece.bytes = sent moves :=
    hany.bytes fun h => by cases h
  refine ⟨takenFrom limit fresh moves, hbytes, hany.proper, ?_, fun channel handler state => ?_⟩
  · rw [← hbytes]
    exact length_le_of_proper hany.proper
  · exact ⟨_, _, pumpFrom_eq channel handler limit moves fresh state, hloop channel handler state,
      fun _ _ _ h' => (hloop channel handler state).unique h'⟩

/-- Lines of at most two bytes: one is dropped before its end, and the rest of it passes for a line;
one is dropped as a whole; and the last one has no line feed. -/
example : takenFrom 2 fresh
    [.chunk [97, 98, 99], .turn, .chunk [100, 10, 101, 102, 103, 10, 104], .turn] =
      [.tooLong [97, 98, 99], .line [100, 10], .tooLong [101, 102, 103, 10], .line [104]] := by
  decide

end LineReader

end GhciRelay
