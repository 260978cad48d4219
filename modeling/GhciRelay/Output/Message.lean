import GhciRelay.Binary64
import GhciRelay.Json.Reader
import GhciRelay.Text.Integer

/-!
# Compiler messages

The compiler prints its messages as JSON objects, one a line. `Message.ofJson?` takes from such an
object what is used here: where the message points to, its reason, severity and text. A field of the
wrong kind makes the whole object unusable, and fields that are not known are ignored.

The four coordinates of a span are positive integers, written in any of several ways: as an integer,
as a decimal that is an integer in binary64, as `true`, or as a text. Each has two names, of which
the camel-case one is preferred.
-/

namespace GhciRelay

/-- A piece of a source file, from one line and column to another, counted from one and both
included. -/
structure Span where
  file : String
  startLine : Int
  startCol : Int
  endLine : Int
  endCol : Int
deriving DecidableEq

/-- **A compiler message.** -/
structure Message where
  span : Option Span
  reason : Option String
  severity : String
  doc : String
deriving DecidableEq

namespace Message

open GhciRelay.Text

/-- The text is empty or a point with zeros only. -/
def isZeroFraction : List Char → Bool
  | [] => true
  | '.' :: zeros => !zeros.isEmpty && zeros.all (· == '0')
  | _ => false

/-- The integer that a text writes: spaces around it, a sign, ASCII digits with single underscores
between them, and a fraction of zeros. -/
def integerText? (s : String) : Option Int :=
  let (negative, body) := splitSign (trim isSpace s.toList)
  let (whole, fraction) := body.span (· != '.')
  if isZeroFraction fraction then
    match groupedDigits? asciiDigit? [] whole with
    | some digits =>
      if (digits.dropWhile (· == 0)).length ≤ digitLimit then some (signed negative digits) else none
    | none => none
  else none

/-- The integer that a value stands for. -/
def integer? : Json → Option Int
  | .bool b => some (if b then 1 else 0)
  | .number (.integer n) => some n
  | .number (.decimal negative m e) =>
    match Binary64.integer? m e with
    | some n => if n < Nat.pow 2 63 then some (if negative then -(n : Int) else n) else none
    | none => none
  | .text s => integerText? s
  | _ => none

/-- **A coordinate**: an integer from one on. -/
def coordinate? (v : Json) : Option Int :=
  match integer? v with
  | some n => if 1 ≤ n then some n else none
  | none => none

/-- The member with the first name, or else the one with the second. -/
def eitherMember (members : List (String × Json)) (first second : String) : Option Json :=
  (Json.lookup first members).or (Json.lookup second members)

/-- The coordinate under one of two names. -/
def coordinateMember? (members : List (String × Json)) (first second : String) : Option Int :=
  (eitherMember members first second).bind coordinate?

/-- The span that a value describes. -/
def span? : Json → Option Span
  | .object members => do
    let file ← (Json.lookup "file" members).bind Json.text?
    let startLine ← coordinateMember? members "startLine" "start_line"
    let startCol ← coordinateMember? members "startCol" "start_col"
    let endLine ← coordinateMember? members "endLine" "end_line"
    let endCol ← coordinateMember? members "endCol" "end_col"
    some ⟨file, startLine, startCol, endLine, endCol⟩
  | _ => none

/-- What `read` makes of a value, where `null` stands for nothing. -/
def nullable {α : Type} (read : Json → Option α) : Json → Option (Option α)
  | .null => some none
  | v => (read v).map some

/-- What `read` makes of a member, or the default if the member is missing. -/
def member {α : Type} (default : α) (read : Json → Option α) : Option Json → Option α
  | none => some default
  | some v => read v

/-- **The message** that a value describes. -/
def ofJson? : Json → Option Message
  | .object members => do
    let span ← member none (nullable span?) (Json.lookup "span" members)
    let reason ← member none (nullable Json.text?) (Json.lookup "reason" members)
    let severity ← member "" Json.text? (Json.lookup "severity" members)
    let doc ← member "" Json.text? (Json.lookup "doc" members)
    some ⟨span, reason, severity, doc⟩
  | _ => none

/-- The message on a line that begins, after blanks, with a brace and is one JSON document. -/
def ofLine? (line : List Char) : Option Message :=
  match line.dropWhile isBlank with
  | '\x7b' :: _ => (Json.read? line).bind ofJson?
  | _ => none

end Message

end GhciRelay
