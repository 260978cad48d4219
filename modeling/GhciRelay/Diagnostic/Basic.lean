import GhciRelay.Output.Record

/-!
# Diagnostics

A diagnostic is what the editor shows at a piece of a file. Its positions are counted from zero and
bounded by `Offset`, whereas spans are counted from one and unbounded; a span that has no range is
refused with the first coordinate that does not fit. A diagnostic is known by its `Key`: a second
report with the same coordinates and reason replaces the first.
-/

namespace GhciRelay

/-- A line or a character, counted from zero. -/
abbrev Offset := Fin 2147483648

/-- The two coordinates of a position. -/
inductive Axis where
  | line
  | character
deriving DecidableEq

/-- A coordinate that no position has. -/
structure OffsetError where
  axis : Axis
  value : Int
deriving DecidableEq

/-- The words in which a coordinate is refused. -/
def OffsetError.message (e : OffsetError) : String :=
  (match e.axis with
    | .line => "Position.line"
    | .character => "Position.character")
    ++ " should be in range [0:2147483647], but was " ++ toString e.value ++ "."

/-- The offset that an integer is. -/
def Offset.ofInt (axis : Axis) (n : Int) : Except OffsetError Offset :=
  if h : 0 ≤ n ∧ n.toNat < 2147483648 then .ok ⟨n.toNat, h.2⟩ else .error ⟨axis, n⟩

/-- A place in a file. -/
structure Position where
  line : Offset
  character : Offset
deriving DecidableEq

/-- The position with the given coordinates, of which the line is looked at first. -/
def Position.ofInts (line character : Int) : Except OffsetError Position := do
  let line ← Offset.ofInt .line line
  let character ← Offset.ofInt .character character
  return ⟨line, character⟩

/-- A piece of a file. -/
structure Range where
  start : Position
  stop : Position
deriving DecidableEq

/-- The range with the given coordinates, of which those of the start are looked at first. -/
def Range.ofInts (startLine startChar endLine endChar : Int) : Except OffsetError Range := do
  let start ← Position.ofInts startLine startChar
  let stop ← Position.ofInts endLine endChar
  return ⟨start, stop⟩

/-- **The range of a span.** -/
def Span.range (s : Span) : Except OffsetError Range :=
  Range.ofInts (s.startLine - 1) (s.startCol - 1) (s.endLine - 1) (s.endCol - 1)

/-- How serious a diagnostic is. -/
inductive Severity where
  | error
  | warning
deriving DecidableEq

/-- The severity that the compiler's word for it means: warnings are warnings, and everything else
is an error. -/
def Severity.ofTag (tag : String) : Severity :=
  if tag = "SevWarning" ∨ tag = "Warning" then .warning else .error

/-- **What the editor shows** at a piece of a file. -/
structure Diagnostic where
  range : Range
  message : String
  severity : Option Severity
  code : Option String
  source : Option String
deriving DecidableEq

/-- The identity of a diagnostic within its file. -/
structure Key where
  startLine : Int
  startCol : Int
  endLine : Int
  endCol : Int
  reason : Option String
deriving DecidableEq

/-- The identity of the diagnostic that a report makes. -/
def Report.key (r : Report) : Key :=
  ⟨r.span.startLine, r.span.startCol, r.span.endLine, r.span.endCol, r.reason⟩

/-- **The diagnostic** that a report makes, from the given source. -/
def Report.diagnostic (r : Report) (source : String) : Except OffsetError Diagnostic := do
  let range ← r.span.range
  return ⟨range, r.doc, some (Severity.ofTag r.severity), r.reason, some source⟩

end GhciRelay
