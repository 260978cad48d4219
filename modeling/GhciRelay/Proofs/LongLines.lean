import GhciRelay.Proofs.Pumping

/-!
# Lines that are too long

A line that is too long is dropped as soon as that shows. If its line feed has come by then, all of it
is dropped with one warning. If not, what has come of it is dropped, and what still comes passes for a
line of its own: it is dropped too if it is too long, and handed on if it is not (`Whole.shares`). So
the lines that are handed on are the lines of the output that are not too long, unless the pump gets a
turn in the middle of a long line and what comes of it later is not too long (`handedOn_lines_iff`).
-/

namespace GhciRelay.LineReader

open GhciRelay.Text

/-! ### The share of a line -/

theorem isShort_of_length {limit : Nat} {line : List UInt8} (h : line.length ≤ limit) :
    isShort limit line = true := by
  rw [isShort, decide_eq_true_iff]
  exact (List.takeWhile_prefix _).length_le.trans h

theorem lt_length_of_isShort {limit : Nat} {line : List UInt8} (h : isShort limit line = false) :
    limit < line.length := by
  by_contra hl
  rw [isShort_of_length (Nat.not_lt.mp hl)] at h
  cases h

theorem isShort_lineFeed {limit : Nat} {body : List UInt8} (hn : 10 ∉ body) (rest : List UInt8) :
    isShort limit (body ++ 10 :: rest) = decide (body.length ≤ limit) := by
  rw [isShort, List.takeWhile_append_of_pos (bne_lineFeed_of_notMem hn)]
  simp

theorem ne_nil_of_mem_lines {bytes line : List UInt8} (h : line ∈ lines bytes) : line ≠ [] := by
  induction bytes using line_induction with
  | last body hn =>
    rw [lines_of_notMem hn] at h
    split at h
    · cases h
    · next hb => rw [List.mem_singleton.mp h]; exact hb
  | line body rest hn ih =>
    rw [lines_lineFeed hn] at h
    rcases List.mem_cons.mp h with rfl | h
    · simp
    · exact ih h

/-- **The share of a line** in what is taken: the line itself if it is not too long. Otherwise parts of
it are dropped, at least one and each too long, and what is left, if anything, passes for a line. -/
def Share (limit : Nat) (line : List UInt8) (share : List Piece) : Prop :=
  if isShort limit line then share = [.line line]
  else ∃ dropped rest, dropped ≠ [] ∧ (∀ part ∈ dropped, limit < part.length) ∧
    line = dropped.flatten ++ rest ∧ isShort limit rest = true ∧
    share = dropped.map .tooLong ++ if rest = [] then [] else [.line rest]

theorem share_of_isShort {limit : Nat} {line : List UInt8} (h : isShort limit line = true) :
    Share limit line [.line line] := by
  rw [Share, if_pos h]

theorem share_dropped {limit : Nat} {line : List UInt8} (h : isShort limit line = false) :
    Share limit line [.tooLong line] := by
  rw [Share, if_neg (by rw [h]; simp)]
  refine ⟨[line], [], by simp, fun part hp => ?_, by simp, by simp [isShort], by simp⟩
  rw [List.mem_singleton.mp hp]
  exact lt_length_of_isShort h

theorem share_overflow {limit : Nat} {body line : List UInt8} {share : List Piece} (hn : 10 ∉ body)
    (hl : limit < body.length) (hline : line ≠ []) (h : Share limit line share) :
    Share limit (body ++ line) (.tooLong body :: share) := by
  rw [Share, if_neg (by rw [isShort_append hn hl]; simp)]
  by_cases hs : isShort limit line = true
  · rw [Share, if_pos hs] at h
    exact ⟨[body], line, by simp, by simpa using hl, by simp, hs, by rw [h, if_neg hline]; rfl⟩
  · rw [Share, if_neg hs] at h
    obtain ⟨dropped, rest, -, hlong, hd, hr, hshare⟩ := h
    refine ⟨body :: dropped, rest, by simp, ?_, by simp [hd], hr, by rw [hshare]; rfl⟩
    simpa using ⟨hl, hlong⟩

/-- **Every line has its share** in what is cut off an output. -/
theorem Cut.shares {limit : Nat} {bytes rest : List UInt8} {pieces : List Piece}
    (h : Cut limit bytes pieces rest) (hn : 10 ∉ rest) (hl : rest.length ≤ limit) :
    ∃ shares, List.Forall₂ (Share limit) (lines bytes) shares ∧
      pieces ++ (if rest = [] then [] else [.line rest]) = shares.flatten := by
  induction h with
  | nothing bytes =>
    rw [lines_of_notMem hn]
    split
    · exact ⟨[], .nil, rfl⟩
    · exact ⟨[[.line bytes]], .cons (share_of_isShort (isShort_of_length hl)) .nil, rfl⟩
  | line unbroken short _ ih =>
    obtain ⟨shares, hs, he⟩ := ih hn hl
    rw [lines_lineFeed unbroken]
    refine ⟨_ :: shares, .cons (share_of_isShort ?_) hs, ?_⟩
    · rw [isShort_lineFeed unbroken]
      exact decide_eq_true short
    · rw [List.flatten_cons, ← he]
      rfl
  | tooLong unbroken long _ ih =>
    obtain ⟨shares, hs, he⟩ := ih hn hl
    rw [lines_lineFeed unbroken]
    refine ⟨_ :: shares, .cons (share_dropped (isShort_append unbroken long _)) hs, ?_⟩
    rw [List.flatten_cons, ← he]
    rfl
  | @overflow body bytes rest pieces unbroken long _ ih =>
    obtain ⟨shares, hs, he⟩ := ih hn hl
    have hne : body ≠ [] := by
      rintro rfl
      simp at long
    rw [lines_append unbroken hne]
    -- the dropped bytes belong to the line that the following bytes begin with, if any follow
    generalize hlines : lines bytes = ls at hs
    cases hs with
    | nil =>
      have hb := isShort_append unbroken long []
      rw [List.append_nil] at hb
      refine ⟨[[.tooLong body]], .cons (by simpa using share_dropped hb) .nil, ?_⟩
      rw [List.cons_append, he]
      rfl
    | @cons line share ls shares first hs =>
      have hmem : line ∈ lines bytes := by
        rw [hlines]
        exact List.mem_cons_self
      have hline : line ≠ [] := ne_nil_of_mem_lines hmem
      refine ⟨_ :: shares, .cons (share_overflow unbroken long hline first) hs, ?_⟩
      rw [List.cons_append, he]
      rfl

theorem Whole.shares {limit : Nat} {bytes : List UInt8} {pieces : List Piece}
    (h : Whole limit bytes pieces) :
    ∃ shares, List.Forall₂ (Share limit) (lines bytes) shares ∧ pieces = shares.flatten := by
  obtain ⟨front, rest, hcut, hn, hl, rfl⟩ := h
  exact hcut.shares hn hl

/-! ### Drops in the middle of a line -/

/-- **What arrives after the drops** of unfinished lines: for each turn at which more bytes of an
unfinished line have come than a line may have, all that arrives later. -/
def afterDrops (limit : Nat) (r : LineReader) : List Move → List (List UInt8)
  | [] => []
  | .chunk bytes :: moves => afterDrops limit (r.arrive bytes) moves
  | .turn :: moves =>
    let later := afterDrops limit (r.drain limit).2 moves
    if limit < (cut limit [] [] r.buffer).2.length then sent moves :: later else later

/-- What follows begins with a line that is too long, or nothing follows. -/
def StaysLong (limit : Nat) (later : List UInt8) : Prop :=
  ∀ line ∈ (lines later).head?, isShort limit line = false

/-- The lines that are taken. -/
def linesTaken (limit : Nat) (r : LineReader) (moves : List Move) : List (List UInt8) :=
  (takenFrom limit r moves).filterMap Piece.line?

theorem taken_cut (limit : Nat) (buffer later : List UInt8) :
    (cut limit [] [] buffer).1.filterMap Piece.line? ++
        (lines ((cut limit [] [] buffer).2 ++ later)).filter (isShort limit) =
      (lines (buffer ++ later)).filter (isShort limit) := by
  induction buffer using line_induction with
  | last body hn =>
    rw [cut_of_notMem limit hn]
    rfl
  | line body rest hn ih =>
    rw [cut_append_lineFeed limit hn, List.append_assoc, List.cons_append, lines_lineFeed hn,
      List.filter_cons, isShort_lineFeed hn, ← ih]
    by_cases hl : body.length ≤ limit <;> simp [hl, Piece.line?, List.filterMap_cons]

/-- What comes of an unfinished line after it was dropped does not count, if it stays too long. -/
theorem eq_filter_tail_iff {limit : Nat} {later : List UInt8} {taken : List (List UInt8)}
    (h : ((lines later).filter (isShort limit)).Sublist taken) :
    taken = (lines later).tail.filter (isShort limit) ↔
      StaysLong limit later ∧ taken = (lines later).filter (isShort limit) := by
  unfold StaysLong
  cases hl : lines later with
  | nil => simp
  | cons line ls =>
    rw [hl, List.filter_cons] at h
    rw [List.filter_cons]
    by_cases hs : isShort limit line = true
    · rw [if_pos hs] at h ⊢
      have hlen := h.length_le
      constructor
      · intro ht
        rw [ht, List.tail_cons, List.length_cons] at hlen
        omega
      · rintro ⟨hlong, -⟩
        have := hlong line rfl
        rw [hs] at this
        cases this
    · rw [if_neg hs]
      simp [hs]

theorem linesTaken_nil (limit : Nat) (r : LineReader) :
    linesTaken limit r [] = (lines r.buffer).filter (isShort limit) := by
  have hcut := taken_cut limit r.buffer []
  have hn : 10 ∉ (cut limit [] [] r.buffer).2 := lineFeed_notMem_cut limit r.buffer [] [] (by simp)
  rw [List.append_nil, List.append_nil, lines_of_notMem hn] at hcut
  rw [← hcut, linesTaken, takenFrom, drain, close]
  generalize cut limit [] [] r.buffer = result at hn
  obtain ⟨pieces, rest⟩ := result
  dsimp only at hn ⊢
  by_cases hl : limit < rest.length
  · have hlong := isShort_append hn hl []
    rw [List.append_nil] at hlong
    have hne : rest ≠ [] := by
      rintro rfl
      simp at hl
    simp [hl, hne, hlong, Piece.line?, List.filterMap_cons]
  · have hshort := isShort_of_length (Nat.not_lt.mp hl)
    by_cases hne : rest = []
    · simp [hne]
    · simp [hl, hne, hshort, Piece.line?]

/-- **The lines that are taken** are those that are not too long, if and only if every line that was
dropped before its end stays too long. -/
theorem linesTaken_eq_iff (limit : Nat) : ∀ (moves : List Move) {r : LineReader}, r.ended = false →
    (linesTaken limit r moves = (lines (r.buffer ++ sent moves)).filter (isShort limit) ↔
      ∀ later ∈ afterDrops limit r moves, StaysLong limit later)
  | [], r, h => by
    rw [linesTaken_nil, sent, List.append_nil]
    exact iff_of_true rfl (by simp [afterDrops])
  | .chunk bytes :: moves, r, h => by
    have ih := linesTaken_eq_iff limit moves (r := r.arrive bytes) (by rw [arrive_of_open h])
    rw [arrive_of_open h] at ih
    rw [linesTaken, sent, takenFrom, afterDrops, ← List.append_assoc, arrive_of_open h]
    exact ih
  | .turn :: moves, r, h => by
    have hcut := taken_cut limit r.buffer (sent moves)
    have hn : 10 ∉ (cut limit [] [] r.buffer).2 := lineFeed_notMem_cut limit r.buffer [] [] (by simp)
    have hdrain : r.drain limit = if limit < (cut limit [] [] r.buffer).2.length
        then ((cut limit [] [] r.buffer).1 ++ [.tooLong (cut limit [] [] r.buffer).2], ⟨[], false⟩)
        else ((cut limit [] [] r.buffer).1, ⟨(cut limit [] [] r.buffer).2, false⟩) := by
      simp only [drain, h]
      rfl
    rw [sent, ← hcut, linesTaken, takenFrom, afterDrops, List.filterMap_append, hdrain]
    generalize cut limit [] [] r.buffer = result at hn
    obtain ⟨pieces, rest⟩ := result
    dsimp only at hn ⊢
    by_cases hl : limit < rest.length
    · have ih := linesTaken_eq_iff limit moves (r := ⟨[], false⟩) rfl
      have hsub : ((lines (sent moves)).filter (isShort limit)).Sublist
          (linesTaken limit ⟨[], false⟩ moves) :=
        (takenFrom_whole limit moves (r := ⟨[], false⟩) rfl).sublist
      have hne : rest ≠ [] := by
        rintro rfl
        simp at hl
      have htail : (lines (rest ++ sent moves)).filter (isShort limit) =
          (lines (sent moves)).tail.filter (isShort limit) := by
        rw [lines_append hn hne, List.filter_cons, if_neg (by rw [isShort_append hn hl]; simp)]
      rw [List.nil_append] at ih
      rw [if_pos hl, if_pos hl, htail, List.forall_mem_cons, ← ih, ← eq_filter_tail_iff hsub]
      simp [linesTaken, Piece.line?, List.filterMap_cons]
    · have ih := linesTaken_eq_iff limit moves (r := ⟨rest, false⟩) rfl
      rw [if_neg hl, if_neg hl, ← ih, List.append_cancel_left_eq]
      rfl

/-! ### What is handed on -/

/-- The texts with which the handler is called. -/
def textsOf (pieces : List Piece) : List String := (pieces.filterMap Piece.line?).map lineText

/-- **What becomes of long lines**: every line of the output has its share in what is taken, a line that
is too long gives at least one warning for bytes that are dropped, and what is handed on besides the
lines that are not too long is the end of one that is. The texts that are handed on are those of
the lines that are not too long, if and only if the pump never gets its turn in the middle of a line of
which too much has come already and what still comes is not too long. -/
theorem handedOn_lines_iff {σ ε : Type} (channel : Channel)
    (handler : σ → String → Except ε (σ × List Effect)) (limit : Nat) (state : σ)
    (moves : List Move) :
    ∃ shares, List.Forall₂ (Share limit) (lines (sent moves)) shares ∧
      pumpAll channel handler limit state moves =
        (⟨[], true⟩, deliverFrom channel handler state [] shares.flatten) ∧
      (textsOf shares.flatten = ((lines (sent moves)).filter (isShort limit)).map lineText ↔
        ∀ later ∈ afterDrops limit fresh moves, StaysLong limit later) := by
  have hwhole : Whole limit (sent moves) (takenFrom limit fresh moves) :=
    takenFrom_whole limit moves (r := fresh) rfl
  have hiff := linesTaken_eq_iff limit moves (r := fresh) rfl
  obtain ⟨shares, hshares, hpieces⟩ := hwhole.shares
  refine ⟨shares, hshares, by rw [pumpAll, pumpFrom_eq, hpieces], ?_⟩
  rw [← hpieces, ← hiff]
  constructor
  · -- equal texts are equally many, and the lines that are not too long are among those taken
    intro h
    have hlen := congrArg List.length h
    rw [textsOf, List.length_map, List.length_map] at hlen
    exact (hwhole.sublist.eq_of_length hlen.symm).symm
  · intro h
    exact congrArg (List.map lineText) h

/-- Six bytes arrive where a line has at most four, then the rest of the line. -/
def inTwoParts : List Move := [.chunk [97, 98, 99, 100, 101, 102], .turn, .chunk [103, 104, 10], .turn]

/-- **The end of a long line can be handed on**, as if it were a line. -/
theorem end_of_long_line_handed_on :
    (∀ line ∈ lines (sent inTwoParts), isShort 4 line = false) ∧
      pumpAll .stdout (allBut "") 4 [] inTwoParts =
        (⟨[], true⟩, ["gh"], [.note (tooLongNote .stdout)]) ∧
      ¬ ∀ (limit : Nat) (moves : List Move), textsOf (takenFrom limit fresh moves) =
        ((lines (sent moves)).filter (isShort limit)).map lineText := by
  refine ⟨by decide, by decide +kernel, fun h => ?_⟩
  have := h 4 inTwoParts
  revert this
  decide +kernel

end GhciRelay.LineReader
