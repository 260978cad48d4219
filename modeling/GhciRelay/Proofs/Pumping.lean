import GhciRelay.Proofs.Lines
import GhciRelay.Proofs.Utf8
import Mathlib.Data.List.SplitBy
import Mathlib.Data.List.TakeWhile

/-!
# Pumping an output

An output is pumped from its beginning to its end: chunks arrive, now and then the pump gets its
turn, and after the end it gets a last one (`pumpAll`). In a turn it reads one line after the other
until nothing can be read (`readsAll_drain`), and each read takes something, so a turn ends.

What the pump takes is settled by the bytes and by the moments of its turns (`takenFrom`), whatever
the handler does. As long as no line is too long the moments do not matter either. The bytes are cut
into lines before they are read as a text, but that comes to the same as reading the whole output and
cutting the text (`map_decode_lines`), because a line feed is a character of its own.
-/

namespace GhciRelay

/-! ### The lines of a text -/

namespace Text

/-- **The lines of a text**: it is split after every line feed, and nothing follows the last one if
the text ends with it. -/
def splitLines (text : List Char) : List (List Char) := text.splitBy fun c _ => c != '\n'

/-- A line without its line end. -/
def lineBody (line : List Char) : String := String.ofList (trimEnd isLineEnd line)

theorem isChain_of_notMem : ∀ {body : List Char}, '\n' ∉ body → ∀ rest : List Char, rest.length ≤ 1 →
    List.IsChain (fun c _ => (c != '\n') = true) (body ++ rest)
  | [], _, [], _ => .nil
  | [], _, [c], _ => .singleton c
  | [], _, _ :: _ :: _, h => by simp at h
  | c :: body, hn, rest, hr => by
    rw [List.mem_cons, not_or] at hn
    refine List.IsChain.cons (isChain_of_notMem hn.2 rest hr) fun _ _ => ?_
    rw [bne_iff_ne]
    exact Ne.symm hn.1

theorem splitLines_lineFeed {body : List Char} (hn : '\n' ∉ body) (rest : List Char) :
    splitLines (body ++ '\n' :: rest) = (body ++ ['\n']) :: splitLines rest := by
  have hline : splitLines (body ++ ['\n']) = [body ++ ['\n']] :=
    List.splitBy_of_isChain (by simp) (isChain_of_notMem hn _ (by simp))
  have happend : splitLines ((body ++ ['\n']) ++ rest) =
      splitLines (body ++ ['\n']) ++ splitLines rest :=
    List.splitBy_append (by simp)
  rw [hline, List.append_assoc, List.singleton_append] at happend
  exact happend

theorem splitLines_of_notMem {body : List Char} (hn : '\n' ∉ body) :
    splitLines body = if body = [] then [] else [body] := by
  split
  · next h => rw [h]; rfl
  · next h =>
    refine List.splitBy_of_isChain h ?_
    simpa using isChain_of_notMem hn [] (by simp)

end Text

namespace LineReader

open GhciRelay.Text

/-- **Bytes come in lines**: what holds of bytes without a line feed, and is kept by a line in front,
holds of all bytes. -/
theorem line_induction {P : List UInt8 → Prop} (last : ∀ body, 10 ∉ body → P body)
    (line : ∀ body rest, 10 ∉ body → P rest → P (body ++ 10 :: rest)) (bytes : List UInt8) :
    P bytes := by
  by_cases h : 10 ∈ bytes
  · obtain ⟨body, rest, hb, hn⟩ := List.eq_append_cons_of_mem h
    rw [hb]
    exact line body rest hn (line_induction last line rest)
  · exact last bytes h
termination_by bytes.length
decreasing_by simp [hb]; omega

/-- **Cutting and reading commute.** -/
theorem map_decode_lines (bytes : List UInt8) :
    (lines bytes).map Utf8.decode = splitLines (Utf8.decode bytes) := by
  induction bytes using line_induction with
  | last body hn =>
    have hn' : '\n' ∉ Utf8.decode body := (Utf8.decodes_decode body).lineFeed_notMem hn
    simp only [lines_of_notMem hn, splitLines_of_notMem hn', Utf8.decode_eq_nil_iff]
    split <;> rfl
  | line body rest hn ih =>
    have hn' : '\n' ∉ Utf8.decode body := (Utf8.decodes_decode body).lineFeed_notMem hn
    rw [lines_lineFeed hn, List.map_cons, ih, Utf8.decode_lineFeed, Utf8.decode_lineFeed,
      splitLines_lineFeed hn']
    rfl

/-! ### One read after the other -/

/-- **One read**: the first line that is in the buffer, all of the buffer if it is too long for a
line, and the rest at the end of the output; nothing as long as there is nothing to read. -/
def readLine (limit : Nat) (r : LineReader) : Option (Piece × LineReader) :=
  let body := r.buffer.takeWhile (· != 10)
  match r.buffer.dropWhile (· != 10) with
  | lineFeed :: rest =>
    some (if body.length ≤ limit then .line (body ++ [lineFeed]) else .tooLong (body ++ [lineFeed]),
      { r with buffer := rest })
  | [] =>
    if limit < body.length then some (.tooLong body, { r with buffer := [] })
    else if r.ended && !body.isEmpty then some (.line body, { r with buffer := [] })
    else none

/-- **Reads one after the other**, until there is nothing to read. -/
inductive ReadsAll (limit : Nat) : LineReader → List Piece → LineReader → Prop
  | stop {r : LineReader} (nothing : r.readLine limit = none) : ReadsAll limit r [] r
  | read {r r' r'' : LineReader} {piece : Piece} {pieces : List Piece}
    (next : r.readLine limit = some (piece, r')) (more : ReadsAll limit r' pieces r'') :
    ReadsAll limit r (piece :: pieces) r''

theorem bne_lineFeed_of_notMem {body : List UInt8} (hn : 10 ∉ body) :
    ∀ b ∈ body, (b != 10) = true := by
  intro b hb
  rw [bne_iff_ne]
  rintro rfl
  exact hn hb

theorem readLine_lineFeed (limit : Nat) {body : List UInt8} (hn : 10 ∉ body) (rest : List UInt8)
    (ended : Bool) : (⟨body ++ 10 :: rest, ended⟩ : LineReader).readLine limit =
      some (if body.length ≤ limit then .line (body ++ [10]) else .tooLong (body ++ [10]),
        ⟨rest, ended⟩) := by
  have hbody := bne_lineFeed_of_notMem hn
  simp [readLine, List.takeWhile_append_of_pos hbody, List.dropWhile_append_of_pos hbody]

theorem readLine_of_notMem (limit : Nat) {body : List UInt8} (hn : 10 ∉ body) (ended : Bool) :
    (⟨body, ended⟩ : LineReader).readLine limit =
      if limit < body.length then some (.tooLong body, ⟨[], ended⟩)
      else if ended && !body.isEmpty then some (.line body, ⟨[], ended⟩)
      else none := by
  have hbody := bne_lineFeed_of_notMem hn
  simp only [readLine, List.takeWhile_eq_self_iff.mpr hbody, List.dropWhile_eq_nil_iff.mpr hbody]

theorem cut_append_lineFeed (limit : Nat) {body : List UInt8} (hn : 10 ∉ body) (rest : List UInt8) :
    cut limit [] [] (body ++ 10 :: rest) =
      ((if body.length ≤ limit then .line (body ++ [10]) else .tooLong (body ++ [10])) ::
        (cut limit [] [] rest).1, (cut limit [] [] rest).2) := by
  rw [cut_held limit body _ [] [] hn, cut, if_pos rfl, cut_found]
  simp

theorem cut_of_notMem (limit : Nat) {body : List UInt8} (hn : 10 ∉ body) :
    cut limit [] [] body = ([], body) := by
  have hheld := cut_held limit body [] [] [] hn
  simpa [cut] using hheld

/-- **A turn ends**: what the reader takes is what it reads one after the other. -/
theorem readsAll_drain (limit : Nat) (r : LineReader) :
    ReadsAll limit r (r.drain limit).1 (r.drain limit).2 := by
  obtain ⟨buffer, ended⟩ := r
  induction buffer using line_induction with
  | last body hn =>
    have hread := readLine_of_notMem limit hn ended
    have hempty : ReadsAll limit ⟨[], ended⟩ [] ⟨[], ended⟩ := .stop (by simp [readLine])
    have hdrain : (⟨body, ended⟩ : LineReader).drain limit =
        if limit < body.length then ([.tooLong body], ⟨[], ended⟩)
        else if ended && !body.isEmpty then ([.line body], ⟨[], ended⟩)
        else ([], ⟨body, ended⟩) := by
      rw [drain, cut_of_notMem limit hn]
      cases body <;> cases ended <;> simp
    rw [hdrain]
    split_ifs at hread ⊢
    · exact .read hread hempty
    · exact .read hread hempty
    · exact .stop hread
  | line body rest hn ih =>
    have hdrain : (⟨body ++ 10 :: rest, ended⟩ : LineReader).drain limit =
        ((if body.length ≤ limit then .line (body ++ [10]) else .tooLong (body ++ [10])) ::
          ((⟨rest, ended⟩ : LineReader).drain limit).1,
          ((⟨rest, ended⟩ : LineReader).drain limit).2) := by
      simp only [drain, cut_append_lineFeed limit hn]
      split_ifs <;> simp
    rw [hdrain]
    exact .read (readLine_lineFeed limit hn rest ended) ih

/-! ### From the beginning to the end -/

/-- What can happen before the output ends: a chunk arrives, or the pump gets its turn. -/
inductive Move where
  | chunk (bytes : List UInt8)
  | turn
deriving DecidableEq

/-- **The output**: all bytes that arrive. -/
def sent : List Move → List UInt8
  | [] => []
  | .chunk bytes :: moves => bytes ++ sent moves
  | .turn :: moves => sent moves

/-- The pieces that are taken from a reader along moves, at the end of the output and in a last turn
after it. -/
def takenFrom (limit : Nat) (r : LineReader) : List Move → List Piece
  | [] => (r.close.drain limit).1
  | .chunk bytes :: moves => takenFrom limit (r.arrive bytes) moves
  | .turn :: moves => (r.drain limit).1 ++ takenFrom limit (r.drain limit).2 moves

theorem arrive_of_open {r : LineReader} (h : r.ended = false) (chunk : List UInt8) :
    r.arrive chunk = ⟨r.buffer ++ chunk, false⟩ := by
  rw [arrive, h]
  rfl

/-- **The pieces make up the output**, whenever the pump gets its turns. -/
theorem takenFrom_whole (limit : Nat) : ∀ (moves : List Move) {r : LineReader}, r.ended = false →
    Whole limit (r.buffer ++ sent moves) (takenFrom limit r moves)
  | [], r, _ => by
    rw [sent, List.append_nil]
    exact drain_whole limit (r := r.close) rfl
  | .chunk bytes :: moves, r, h => by
    have ih := takenFrom_whole limit moves (r := r.arrive bytes) (by rw [arrive_of_open h])
    rw [sent, takenFrom, ← List.append_assoc]
    rwa [arrive_of_open h] at ih ⊢
  | .turn :: moves, r, h => by
    have ih := takenFrom_whole limit moves ((drain_ended limit r).trans h)
    exact ((drain_cut limit h).append _).whole ih

section Handler

variable {σ ε : Type} (channel : Channel) (handler : σ → String → Except ε (σ × List Effect))

/-- The pump along moves, at the end of the output and in a last turn after it. -/
def pumpFrom (limit : Nat) (r : LineReader) (state : σ) : List Move → LineReader × σ × List Effect
  | [] => r.close.pump channel handler limit state
  | .chunk bytes :: moves => pumpFrom limit (r.arrive bytes) state moves
  | .turn :: moves =>
    let (r', state', effects) := r.pump channel handler limit state
    let (r'', state'', effects') := pumpFrom limit r' state' moves
    (r'', state'', effects ++ effects')

/-- **The pump from the beginning to the end** of an output. -/
def pumpAll (limit : Nat) (state : σ) (moves : List Move) : LineReader × σ × List Effect :=
  pumpFrom channel handler limit fresh state moves

/-- **What the handler gets** are the pieces of the output, and in the end nothing is left. -/
theorem pumpFrom_eq (limit : Nat) : ∀ (moves : List Move) (r : LineReader) (state : σ),
    pumpFrom channel handler limit r state moves =
      (⟨[], true⟩, deliverFrom channel handler state [] (takenFrom limit r moves))
  | [], r, state => by
    simp only [pumpFrom, pump, takenFrom]
    rw [drain_of_ended limit rfl]
  | .chunk bytes :: moves, r, state => pumpFrom_eq limit moves (r.arrive bytes) state
  | .turn :: moves, r, state => by
    simp only [pumpFrom, pump, takenFrom]
    rw [pumpFrom_eq limit moves, deliverFrom_append]

/-- **The handler is called with each of the lines**, in order. If it fails, its state stays as it is and
the failure is noted. -/
def callEach (state : σ) : List String → σ × List Effect
  | [] => (state, [])
  | line :: lines =>
    let (state', effects) :=
      match handler state line with
      | .ok result => result
      | .error _ => (state, [.note (handlerNote channel)])
    let (state'', effects') := callEach state' lines
    (state'', effects ++ effects')

theorem deliverFrom_map_line : ∀ (ls : List (List UInt8)) (state : σ),
    deliverFrom channel handler state [] (ls.map .line) =
      callEach channel handler state (ls.map lineText)
  | [], state => rfl
  | l :: ls, state => by
    simp only [List.map_cons, deliverFrom, callEach]
    rw [deliverFrom_done, deliverFrom_map_line ls, deliver]
    cases handler state (lineText l) <;> simp

/-- **Every line is handed on as it stands in the text**: if no line is too long, every turn of the pump
ends and so does the pump, and the handler is called with the lines of the text that the whole output
means, each without its line end, and with nothing else. When the chunks arrive and when the pump gets
its turns makes no difference, and no call of the handler, failed or not, has any influence on the next
lines. (A handler that changes its state and then fails is one that answers with the changed state and
notes the failure itself.) -/
theorem pumpAll_eq_callEach_splitLines (limit : Nat) (state : σ) (moves : List Move)
    (hs : ∀ line ∈ lines (sent moves), isShort limit line = true) :
    (∀ r : LineReader, ReadsAll limit r (r.drain limit).1 (r.drain limit).2) ∧
    ∃ text, Utf8.Decodes (sent moves) text ∧
      pumpAll channel handler limit state moves =
        (⟨[], true⟩, callEach channel handler state ((splitLines text).map lineBody)) := by
  refine ⟨readsAll_drain limit, Utf8.decode (sent moves), Utf8.decodes_decode _, ?_⟩
  have hpieces : takenFrom limit fresh moves = (lines (sent moves)).map .line :=
    (takenFrom_whole limit moves rfl).eq_map_line hs
  have htexts : (lines (sent moves)).map lineText =
      (splitLines (Utf8.decode (sent moves))).map lineBody := by
    rw [← map_decode_lines, List.map_map]
    rfl
  rw [pumpAll, pumpFrom_eq, hpieces, deliverFrom_map_line, htexts]

end Handler

/-- A handler that remembers all lines but one, at which it fails. -/
def allBut (refused : String) (heard : List String) (line : String) :
    Except Unit (List String × List Effect) :=
  if line = refused then .error () else .ok (heard ++ [line], [])

/-- A character and a line end arrive in halves, and the output ends inside a character. -/
def inHalves : List Move :=
  [.chunk [0xc3], .turn, .chunk [0xa9, 13], .turn, .chunk [10, 97, 0xe2, 0x82], .turn]

theorem pumpAll_eq_callEach_splitLines_halved :
    (∀ line ∈ lines (sent inHalves), isShort 3 line = true) ∧
      pumpAll .stdout (allBut "é") 3 [] inHalves =
        (⟨[], true⟩, ["a\ufffd"], [.note (handlerNote .stdout)]) ∧
      ∃ text, Utf8.Decodes (sent inHalves) text ∧
        pumpAll .stdout (allBut "é") 3 [] inHalves =
          (⟨[], true⟩, callEach .stdout (allBut "é") [] ((splitLines text).map lineBody)) := by
  have hs : ∀ line ∈ lines (sent inHalves), isShort 3 line = true := by decide
  exact ⟨hs, by decide +kernel,
    (pumpAll_eq_callEach_splitLines .stdout (allBut "é") 3 [] inHalves hs).2⟩

end LineReader

end GhciRelay
