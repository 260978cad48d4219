import GhciRelay.Effect
import GhciRelay.Text.Blank
import GhciRelay.Text.Utf8

/-!
# Reading lines from a process

The output of a process arrives in chunks and is taken in lines. A reader holds what has arrived and
was not taken yet. `drain` takes all it can: every complete line, the rest at the end of the output,
and, with a warning, what is too long. A line of more than `limit` bytes before its line feed is
dropped with the line feed; more than `limit` bytes without any line feed are dropped at once, and
what arrives later begins a new line.

What is taken are `Piece`s of the output, and nothing is ever taken that is in no piece.
-/

namespace GhciRelay

/-- One of the two outputs of a process. -/
inductive Channel where
  | stdout
  | stderr
deriving DecidableEq

/-- The name of a channel. -/
def Channel.name : Channel → String
  | .stdout => "stdout"
  | .stderr => "stderr"

/-- **A piece of output**: a line with its line feed, if it has one, or bytes that are too many. -/
inductive Piece where
  | line (bytes : List UInt8)
  | tooLong (bytes : List UInt8)
deriving DecidableEq

/-- The bytes of a piece. -/
def Piece.bytes : Piece → List UInt8
  | .line bytes => bytes
  | .tooLong bytes => bytes

/-- **A reader**: the bytes that have arrived, and whether no more will come. -/
structure LineReader where
  buffer : List UInt8
  ended : Bool
deriving DecidableEq

namespace LineReader

open GhciRelay.Text

/-- A reader to which nothing has come. -/
def fresh : LineReader := ⟨[], false⟩

/-- A chunk arrives; none does after the end. -/
def arrive (r : LineReader) (chunk : List UInt8) : LineReader :=
  if r.ended then r else { r with buffer := r.buffer ++ chunk }

/-- The output ends. -/
def close (r : LineReader) : LineReader := { r with ended := true }

/-- The complete lines of the bytes, and what follows the last of them. The bytes of the present line
are held the last one first, and so are the pieces already found. -/
def cut (limit : Nat) (held : List UInt8) (found : List Piece) :
    List UInt8 → List Piece × List UInt8
  | [] => (found.reverse, held.reverse)
  | b :: bs =>
    if b = 10 then
      let whole := (b :: held).reverse
      let piece := if held.length ≤ limit then Piece.line whole else Piece.tooLong whole
      cut limit [] (piece :: found) bs
    else cut limit (b :: held) found bs

/-- **Taking all that can be taken.** -/
def drain (limit : Nat) (r : LineReader) : List Piece × LineReader :=
  let (pieces, rest) := cut limit [] [] r.buffer
  if limit < rest.length then (pieces ++ [.tooLong rest], { r with buffer := [] })
  else if r.ended then
    (if rest.isEmpty then pieces else pieces ++ [.line rest], { r with buffer := [] })
  else (pieces, { r with buffer := rest })

/-- The text of a line: its bytes read as UTF-8, without the line end. -/
def lineText (bytes : List UInt8) : String :=
  String.ofList (trimEnd isLineEnd (Utf8.decode bytes))

/-- The source of the entries that reading makes in the log. -/
def origin : String := "ghci.session"

/-- The warning that something was too long. -/
def tooLongNote (channel : Channel) : Log.Entry :=
  ⟨.warning, origin, "event=line_too_long channel=" ++ channel.name⟩

/-- The complaint that a line could not be handled. -/
def handlerNote (channel : Channel) : Log.Entry :=
  ⟨.error, origin, "event=line_handler_error channel=" ++ channel.name⟩

section Deliver

variable {σ ε : Type} (channel : Channel) (handler : σ → String → Except ε (σ × List Effect))

/-- One piece is handed on: a line to the handler, whose failure is only noted. -/
def deliver (state : σ) : Piece → σ × List Effect
  | .tooLong _ => (state, [.note (tooLongNote channel)])
  | .line bytes =>
    match handler state (lineText bytes) with
    | .ok (state', effects) => (state', effects)
    | .error _ => (state, [.note (handlerNote channel)])

/-- Pieces are handed on in order. The effects so far are kept the last one first. -/
def deliverFrom (state : σ) (done : List Effect) : List Piece → σ × List Effect
  | [] => (state, done.reverse)
  | p :: ps =>
    let (state', effects) := deliver channel handler state p
    deliverFrom state' (effects.reverse ++ done) ps

/-- **Pumping**: all that can be taken is taken and handed on. -/
def pump (limit : Nat) (r : LineReader) (state : σ) : LineReader × σ × List Effect :=
  let (pieces, r') := r.drain limit
  let (state', effects) := deliverFrom channel handler state [] pieces
  (r', state', effects)

end Deliver

end LineReader

end GhciRelay
