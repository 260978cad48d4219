import GhciRelay.Proofs.LineReader

/-!
# Lines, and what is taken of them

The lines of an output are determined by its bytes; what a reader takes also depends on when it looks,
because a line that is too long is dropped as soon as that shows. `Cut` says what pieces a reader can
make of bytes, whenever it looks. Whatever it does, it takes every line that is not too long, in order
(`Whole.sublist`), and if no line is too long it takes the lines and nothing else (`Whole.eq_lines`).

`Taken` ties a reader to the bytes that have come and to the pieces that were taken, and `Reading` to
the lines among them; everything that can happen to a reader keeps both.
-/

namespace GhciRelay

/-- The bytes of a piece that is a line. -/
def Piece.line? : Piece → Option (List UInt8)
  | .line bytes => some bytes
  | .tooLong _ => none

namespace LineReader

/-! ### Lines -/

/-- **The lines of an output**, each with its line feed, if it has one. -/
def lines : List UInt8 → List (List UInt8)
  | [] => []
  | b :: bs =>
    if b = 10 then [b] :: lines bs
    else
      match lines bs with
      | [] => [[b]]
      | line :: later => (b :: line) :: later

/-- A line is not too long if it has at most `limit` bytes in front of its line feed. -/
def isShort (limit : Nat) (line : List UInt8) : Bool :=
  decide ((line.takeWhile (· != 10)).length ≤ limit)

theorem lines_append : ∀ {body : List UInt8}, 10 ∉ body → body ≠ [] → ∀ rest : List UInt8,
    lines (body ++ rest) = (body ++ (lines rest).headD []) :: (lines rest).tail
  | [], _, hne, _ => absurd rfl hne
  | [b], hn, _, rest => by
    have hb : b ≠ 10 := by simpa using Ne.symm (by simpa using hn)
    rw [List.singleton_append, lines, if_neg hb]
    cases lines rest <;> rfl
  | b :: c :: body, hn, _, rest => by
    rw [List.mem_cons, not_or] at hn
    rw [List.cons_append, lines, if_neg (Ne.symm hn.1), lines_append hn.2 (by simp) rest]
    rfl

theorem lines_lineFeed {body : List UInt8} (hn : 10 ∉ body) (rest : List UInt8) :
    lines (body ++ 10 :: rest) = (body ++ [10]) :: lines rest := by
  cases body with
  | nil => rfl
  | cons b body =>
    rw [lines_append hn (by simp)]
    rfl

theorem lines_of_notMem {body : List UInt8} (hn : 10 ∉ body) :
    lines body = if body = [] then [] else [body] := by
  split
  · next h => rw [h]; rfl
  · next h =>
    have hl := lines_append hn h []
    simpa [lines] using hl

/-- A line that begins with too many bytes is too long. -/
theorem isShort_append {limit : Nat} {body : List UInt8} (hn : 10 ∉ body) (hl : limit < body.length)
    (rest : List UInt8) : isShort limit (body ++ rest) = false := by
  have hbody : ∀ b ∈ body, (b != 10) = true := by
    intro b hb
    rw [bne_iff_ne]
    rintro rfl
    exact hn hb
  rw [isShort, List.takeWhile_append_of_pos hbody, decide_eq_false_iff_not, List.length_append]
  omega

/-! ### Cutting bytes into pieces -/

/-- **Pieces are cut off bytes**, and leave the rest: lines that are not too long, lines that are, and
bytes that are too many before any line feed has come. -/
inductive Cut (limit : Nat) : List UInt8 → List Piece → List UInt8 → Prop
  | nothing (bytes : List UInt8) : Cut limit bytes [] bytes
  | line {body bytes rest : List UInt8} {pieces : List Piece} (unbroken : 10 ∉ body)
    (short : body.length ≤ limit) (more : Cut limit bytes pieces rest) :
    Cut limit (body ++ 10 :: bytes) (.line (body ++ [10]) :: pieces) rest
  | tooLong {body bytes rest : List UInt8} {pieces : List Piece} (unbroken : 10 ∉ body)
    (long : limit < body.length) (more : Cut limit bytes pieces rest) :
    Cut limit (body ++ 10 :: bytes) (.tooLong (body ++ [10]) :: pieces) rest
  | overflow {body bytes rest : List UInt8} {pieces : List Piece} (unbroken : 10 ∉ body)
    (long : limit < body.length) (more : Cut limit bytes pieces rest) :
    Cut limit (body ++ bytes) (.tooLong body :: pieces) rest

/-- **A whole output is cut into pieces**: what is left at its end is a line too. -/
def Whole (limit : Nat) (bytes : List UInt8) (pieces : List Piece) : Prop :=
  ∃ front rest, Cut limit bytes front rest ∧ 10 ∉ rest ∧ rest.length ≤ limit ∧
    pieces = front ++ if rest = [] then [] else [.line rest]

namespace Cut

variable {limit : Nat} {bytes rest : List UInt8} {pieces : List Piece}

theorem append (h : Cut limit bytes pieces rest) (more : List UInt8) :
    Cut limit (bytes ++ more) pieces (rest ++ more) := by
  induction h with
  | nothing bytes => exact .nothing _
  | line unbroken short _ ih =>
    rw [List.append_assoc, List.cons_append]
    exact .line unbroken short ih
  | tooLong unbroken long _ ih =>
    rw [List.append_assoc, List.cons_append]
    exact .tooLong unbroken long ih
  | overflow unbroken long _ ih =>
    rw [List.append_assoc]
    exact .overflow unbroken long ih

theorem trans (h : Cut limit bytes pieces rest) {pieces' : List Piece} {rest' : List UInt8}
    (h' : Cut limit rest pieces' rest') : Cut limit bytes (pieces ++ pieces') rest' := by
  induction h with
  | nothing bytes => exact h'
  | line unbroken short _ ih => exact .line unbroken short (ih h')
  | tooLong unbroken long _ ih => exact .tooLong unbroken long (ih h')
  | overflow unbroken long _ ih => exact .overflow unbroken long (ih h')

theorem whole (h : Cut limit bytes pieces rest) {pieces' : List Piece}
    (h' : Whole limit rest pieces') : Whole limit bytes (pieces ++ pieces') := by
  obtain ⟨front, last, hcut, hn, hl, rfl⟩ := h'
  exact ⟨pieces ++ front, last, h.trans hcut, hn, hl, (List.append_assoc ..).symm⟩

theorem whole_of_nil (h : Cut limit bytes pieces []) : Whole limit bytes pieces :=
  ⟨pieces, [], h, by simp, by simp, by simp⟩

theorem bytes_eq (h : Cut limit bytes pieces rest) :
    pieces.flatMap Piece.bytes ++ rest = bytes := by
  induction h with
  | nothing bytes => rfl
  | line _ _ _ ih => rw [List.flatMap_cons, Piece.bytes, List.append_assoc, ih]; simp
  | tooLong _ _ _ ih => rw [List.flatMap_cons, Piece.bytes, List.append_assoc, ih]; simp
  | overflow _ _ _ ih => rw [List.flatMap_cons, Piece.bytes, List.append_assoc, ih]

/-- **Every line that is not too long is taken**, in order, with what is left. -/
theorem sublist (h : Cut limit bytes pieces rest) (hn : 10 ∉ rest) :
    ((lines bytes).filter (isShort limit)).Sublist
      (pieces.filterMap Piece.line? ++ if rest = [] then [] else [rest]) := by
  induction h with
  | nothing bytes =>
    rw [lines_of_notMem hn]
    exact List.filter_sublist
  | @line body bytes rest pieces unbroken short _ ih =>
    rw [lines_lineFeed unbroken, List.filter_cons]
    split
    · exact (ih hn).cons_cons _
    · exact (ih hn).cons _
  | @tooLong body bytes rest pieces unbroken long _ ih =>
    rw [lines_lineFeed unbroken, List.filter_cons, if_neg (by rw [isShort_append unbroken long]; simp)]
    exact ih hn
  | @overflow body bytes rest pieces unbroken long _ ih =>
    have hne : body ≠ [] := by
      rintro rfl
      simp at long
    -- the rest of the line passes for a line of its own, which may be taken or not
    have htail : ((lines bytes).tail.filter (isShort limit)).Sublist
        ((lines bytes).filter (isShort limit)) := (List.tail_sublist _).filter _
    rw [lines_append unbroken hne, List.filter_cons,
      if_neg (by rw [isShort_append unbroken long]; simp)]
    exact htail.trans (ih hn)

/-- **If no line is too long**, the pieces are the lines. -/
theorem eq_map_line (h : Cut limit bytes pieces rest) (hn : 10 ∉ rest)
    (hs : ∀ line ∈ lines bytes, isShort limit line = true) :
    pieces ++ (if rest = [] then [] else [.line rest]) = (lines bytes).map .line := by
  induction h with
  | nothing bytes =>
    rw [lines_of_notMem hn]
    split <;> rfl
  | line unbroken short _ ih =>
    rw [lines_lineFeed unbroken] at hs ⊢
    rw [List.cons_append, ih hn fun l hl => hs l (List.mem_cons_of_mem _ hl), List.map_cons]
  | tooLong unbroken long _ ih =>
    rw [lines_lineFeed unbroken] at hs
    have hfirst := hs _ List.mem_cons_self
    rw [isShort_append unbroken long] at hfirst
    cases hfirst
  | @overflow body bytes rest pieces unbroken long _ ih =>
    have hne : body ≠ [] := by
      rintro rfl
      simp at long
    rw [lines_append unbroken hne] at hs
    have hfirst := hs _ List.mem_cons_self
    rw [isShort_append unbroken long] at hfirst
    cases hfirst

end Cut

theorem Whole.cut {limit : Nat} {bytes : List UInt8} {pieces : List Piece}
    (h : Whole limit bytes pieces) : ∃ front rest, Cut limit bytes front rest ∧ 10 ∉ rest ∧
      pieces.filterMap Piece.line? =
        front.filterMap Piece.line? ++ if rest = [] then [] else [rest] := by
  obtain ⟨front, rest, hcut, hn, -, rfl⟩ := h
  refine ⟨front, rest, hcut, hn, ?_⟩
  rw [List.filterMap_append]
  split <;> rfl

theorem Whole.bytes_eq {limit : Nat} {bytes : List UInt8} {pieces : List Piece}
    (h : Whole limit bytes pieces) : pieces.flatMap Piece.bytes = bytes := by
  obtain ⟨front, rest, hcut, -, -, rfl⟩ := h
  rw [List.flatMap_append, ← hcut.bytes_eq]
  split
  · next hrest => rw [hrest]; rfl
  · simp [Piece.bytes]

theorem Whole.sublist {limit : Nat} {bytes : List UInt8} {pieces : List Piece}
    (h : Whole limit bytes pieces) :
    ((lines bytes).filter (isShort limit)).Sublist (pieces.filterMap Piece.line?) := by
  obtain ⟨front, rest, hcut, hn, he⟩ := h.cut
  rw [he]
  exact hcut.sublist hn

theorem Whole.eq_map_line {limit : Nat} {bytes : List UInt8} {pieces : List Piece}
    (h : Whole limit bytes pieces) (hs : ∀ line ∈ lines bytes, isShort limit line = true) :
    pieces = (lines bytes).map .line := by
  obtain ⟨front, rest, hcut, hn, -, rfl⟩ := h
  exact hcut.eq_map_line hn hs

theorem Whole.eq_lines {limit : Nat} {bytes : List UInt8} {pieces : List Piece}
    (h : Whole limit bytes pieces) (hs : ∀ line ∈ lines bytes, isShort limit line = true) :
    pieces.filterMap Piece.line? = lines bytes := by
  rw [h.eq_map_line hs, List.filterMap_map]
  exact List.filterMap_some

/-! ### What a reader takes -/

theorem cut_isCut (limit : Nat) : ∀ (bs held : List UInt8), 10 ∉ held →
    Cut limit (held.reverse ++ bs) (cut limit held [] bs).1 (cut limit held [] bs).2
  | [], held, _ => by
    rw [List.append_nil]
    exact .nothing _
  | b :: bs, held, hn => by
    have hn' : 10 ∉ held.reverse := by simpa using hn
    by_cases hb : b = 10
    · subst hb
      have ih := cut_isCut limit bs [] (by simp)
      rw [List.reverse_nil, List.nil_append] at ih
      simp only [cut, if_true]
      rw [cut_found]
      simp only [List.reverse_cons, List.reverse_nil, List.nil_append, List.singleton_append]
      split
      · next hl => exact .line hn' (by simpa using hl) ih
      · next hl => exact .tooLong hn' (by simpa using hl) ih
    · have ih := cut_isCut limit bs (b :: held) (by simp [Ne.symm hb, hn])
      rw [cut, if_neg hb]
      simpa using ih

theorem drain_cut (limit : Nat) {r : LineReader} (h : r.ended = false) :
    Cut limit r.buffer (r.drain limit).1 (r.drain limit).2.buffer := by
  have hcut := cut_isCut limit r.buffer [] (by simp)
  have hn : 10 ∉ (cut limit [] [] r.buffer).2 := lineFeed_notMem_cut limit r.buffer [] [] (by simp)
  rw [List.reverse_nil, List.nil_append] at hcut
  unfold drain
  dsimp only
  split_ifs with hl he
  · have hover := Cut.overflow hn hl (.nothing [])
    rw [List.append_nil] at hover
    exact hcut.trans hover
  · rw [h] at he; cases he
  · rw [h] at he; cases he
  · exact hcut

theorem drain_whole (limit : Nat) {r : LineReader} (h : r.ended = true) :
    Whole limit r.buffer (r.drain limit).1 := by
  have hcut := cut_isCut limit r.buffer [] (by simp)
  have hn : 10 ∉ (cut limit [] [] r.buffer).2 := lineFeed_notMem_cut limit r.buffer [] [] (by simp)
  rw [List.reverse_nil, List.nil_append] at hcut
  unfold drain
  dsimp only
  split_ifs with hl he
  · have hover := Cut.overflow hn hl (.nothing [])
    rw [List.append_nil] at hover
    exact (hcut.trans hover).whole_of_nil
  · rw [List.isEmpty_iff] at he
    rw [he] at hcut
    exact hcut.whole_of_nil
  · rw [List.isEmpty_iff] at he
    exact ⟨_, _, hcut, hn, Nat.not_lt.mp hl, by rw [if_neg he]⟩

/-- A line that is too long is taken as such, with its line feed. -/
theorem drain_tooLong (limit : Nat) {bs : List UInt8} (hn : 10 ∉ bs) (hl : limit < bs.length)
    (ended : Bool) :
    (⟨bs ++ [10], ended⟩ : LineReader).drain limit = ([.tooLong (bs ++ [10])], ⟨[], ended⟩) := by
  have hcut : LineReader.cut limit [] [] (bs ++ [10]) = ([.tooLong (bs ++ [10])], []) := by
    rw [cut_held limit bs [10] [] [] hn]
    simp [LineReader.cut, Nat.not_le.mpr hl]
  simp [LineReader.drain, hcut]

/-- **An output was taken to its end**, in pieces of which the lines are passed on: every line that is
not too long is, in order, and if no line is too long the lines are all there is. -/
structure Heard (limit : Nat) (bytes : List UInt8) (taken : List (List UInt8)) : Prop where
  pieces : ∃ pieces, Whole limit bytes pieces ∧ taken = pieces.filterMap Piece.line?
  short : ((lines bytes).filter (isShort limit)).Sublist taken
  all : (∀ line ∈ lines bytes, isShort limit line = true) → taken = lines bytes

theorem Whole.heard {limit : Nat} {bytes : List UInt8} {pieces : List Piece}
    (h : Whole limit bytes pieces) : Heard limit bytes (pieces.filterMap Piece.line?) :=
  ⟨⟨pieces, h, rfl⟩, h.sublist, h.eq_lines⟩

/-- **What was taken so far**: the pieces are cut off the bytes that have come, and what is left is in
the buffer; or the output has ended and was taken as a whole. -/
def Taken (limit : Nat) (bytes : List UInt8) (pieces : List Piece) (r : LineReader) : Prop :=
  Cut limit bytes pieces r.buffer ∨ r = ⟨[], true⟩ ∧ Whole limit bytes pieces

namespace Taken

variable {limit : Nat} {bytes : List UInt8} {pieces : List Piece} {r : LineReader}

theorem fresh (limit : Nat) : Taken limit [] [] fresh := .inl (.nothing [])

theorem arrive (h : Taken limit bytes pieces r) (chunk : List UInt8) :
    Taken limit (if r.ended then bytes else bytes ++ chunk) pieces (r.arrive chunk) := by
  unfold LineReader.arrive
  split
  · exact h
  · next he =>
    rcases h with hc | ⟨rfl, -⟩
    · exact .inl (hc.append chunk)
    · exact absurd rfl he

theorem close (h : Taken limit bytes pieces r) : Taken limit bytes pieces r.close := by
  rcases h with hc | ⟨rfl, hw⟩
  · exact .inl hc
  · exact .inr ⟨rfl, hw⟩

theorem drain (h : Taken limit bytes pieces r) :
    Taken limit bytes (pieces ++ (r.drain limit).1) (r.drain limit).2 := by
  rcases h with hc | ⟨rfl, hw⟩
  · cases he : r.ended with
    | false => exact .inl (hc.trans (drain_cut limit he))
    | true => exact .inr ⟨drain_of_ended limit he, hc.whole (drain_whole limit he)⟩
  · rw [drain_of_nil limit rfl, List.append_nil]
    exact .inr ⟨rfl, hw⟩

/-- **At the end** the output was taken as a whole. -/
theorem whole (h : Taken limit bytes pieces ⟨[], true⟩) : Whole limit bytes pieces := by
  rcases h with hc | ⟨-, hw⟩
  · exact hc.whole_of_nil
  · exact hw

end Taken

/-- **The lines that were taken so far.** -/
def Reading (limit : Nat) (bytes : List UInt8) (taken : List (List UInt8)) (r : LineReader) : Prop :=
  ∃ pieces, taken = pieces.filterMap Piece.line? ∧ Taken limit bytes pieces r

namespace Reading

variable {limit : Nat} {bytes : List UInt8} {taken : List (List UInt8)} {r : LineReader}

theorem fresh (limit : Nat) : Reading limit [] [] fresh := ⟨[], rfl, .fresh limit⟩

theorem arrive (h : Reading limit bytes taken r) (chunk : List UInt8) :
    Reading limit (if r.ended then bytes else bytes ++ chunk) taken (r.arrive chunk) := by
  obtain ⟨pieces, ht, hc⟩ := h
  exact ⟨pieces, ht, hc.arrive chunk⟩

theorem close (h : Reading limit bytes taken r) : Reading limit bytes taken r.close := by
  obtain ⟨pieces, ht, hc⟩ := h
  exact ⟨pieces, ht, hc.close⟩

theorem drain (h : Reading limit bytes taken r) :
    Reading limit bytes (taken ++ (r.drain limit).1.filterMap Piece.line?) (r.drain limit).2 := by
  obtain ⟨pieces, rfl, hc⟩ := h
  exact ⟨_, List.filterMap_append.symm, hc.drain⟩

theorem heard (h : Reading limit bytes taken ⟨[], true⟩) : Heard limit bytes taken := by
  obtain ⟨pieces, rfl, hc⟩ := h
  exact hc.whole.heard

end Reading

/-! ### Handing lines on -/

section Hand

variable {σ ε : Type} (channel : Channel) (handler : σ → String → Except ε (σ × List Effect))

/-- A line is handed on; if the handler fails, its state stays as it is. -/
def hand (state : σ) (line : String) : σ :=
  match handler state line with
  | .ok (state', _) => state'
  | .error _ => state

/-- **Handing pieces on is handing on their lines.** -/
theorem deliverFrom_eq_foldl : ∀ (ps : List Piece) (state : σ) (done : List Effect),
    (deliverFrom channel handler state done ps).1 =
      ((ps.filterMap Piece.line?).map lineText).foldl (hand handler) state
  | [], _, _ => rfl
  | .tooLong _ :: ps, state, _ => deliverFrom_eq_foldl ps state _
  | .line bytes :: ps, state, done => by
    have hstep : (deliver channel handler state (.line bytes)).1 =
        hand handler state (lineText bytes) := by
      simp only [deliver, hand]
      cases handler state (lineText bytes) <;> rfl
    rw [deliverFrom, deliverFrom_eq_foldl ps, hstep]
    rfl

end Hand

end LineReader

end GhciRelay
