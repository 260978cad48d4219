import GhciRelay.Output.Banner
import GhciRelay.Output.Message

/-!
# Records

A line of output means one of five things: the compiler reports on a piece of a source file, the
compiler begins with a module, a structured message concerns the prompt itself, the prompt was
printed, or anything else. `Sentinel.classify` tells them apart. A structured message is never taken
for a prompt, even if the sentinel occurs in it; any other line that holds the sentinel is.
-/

namespace GhciRelay

/-- A compiler message about a piece of a source file. -/
structure Report where
  span : Span
  reason : Option String
  severity : String
  doc : String
deriving DecidableEq

/-- **What a line of output means.** -/
inductive Record where
  | report (r : Report)
  | compiling (b : Banner)
  | interactive (line : String)
  | prompt (line : String)
  | plain (line : String)
deriving DecidableEq

/-- The prompt that the interpreter was given; it is not empty. -/
structure Sentinel where
  text : String
  nonempty : text ≠ ""
deriving DecidableEq

namespace Sentinel

open GhciRelay.Text

/-- The sentinel with the given text, unless the text is empty. -/
def ofText? (text : String) : Option Sentinel :=
  if h : text = "" then none else some ⟨text, h⟩

/-- The words in which an empty sentinel is refused. -/
def emptyMessage : String := "prompt sentinel must not be empty"

/-- The text `part` occurs in the text `s`. -/
def occursIn (part : List Char) : List Char → Bool
  | [] => part.isEmpty
  | c :: cs => part.isPrefixOf (c :: cs) || occursIn part cs

/-- The name that spans have instead of a file when they point to what was typed at the prompt. -/
def interactiveFile : String := "<interactive>"

/-- The severity of messages that only pass on output. -/
def outputSeverity : String := "SevOutput"

/-- A structured line. -/
def classifyMessage (line : String) (m : Message) : Except TooManyDigits Record :=
  match m.span with
  | some span =>
    if span.file = interactiveFile then .ok (.interactive line)
    else .ok (.report ⟨span, m.reason, m.severity, m.doc⟩)
  | none =>
    if m.reason = none ∧ m.severity = outputSeverity then
      (Banner.read m.doc.toList).map fun
        | some b => .compiling b
        | none => .plain line
    else .ok (.plain line)

/-- Any other line. -/
def classifyText (s : Sentinel) (line : List Char) : Except TooManyDigits Record :=
  if occursIn s.text.toList line then .ok (.prompt (String.ofList line))
  else
    (Banner.read line).map fun
      | some b => .compiling b
      | none => .plain (String.ofList line)

/-- **What a line means** to a session with this sentinel. The line end does not belong to it. -/
def classify (s : Sentinel) (raw : String) : Except TooManyDigits Record :=
  let line := trimEnd isLineEnd raw.toList
  match Message.ofLine? line with
  | some m => classifyMessage (String.ofList line) m
  | none => s.classifyText line

end Sentinel

end GhciRelay
