import GhciRelay.Output.Record

/-!
# The prompt

The interpreter is told to print a *sentinel* as its prompt, a text that no ordinary output holds,
so that it can be seen when it has finished a command. The sentinel is a block comment of the
interpreter's language with the name and version of this program and a time; the command that
installs it writes the sentinel and a line feed as a string literal.
-/

namespace GhciRelay.Prompt

/-- The name of the program. -/
def programName : String := "ghci-bridge"

/-- The version of the program. -/
def programVersion : String := "0.1.0"

/-- **The sentinel text** for a program and a time in milliseconds. -/
def sentinelText (name version : String) (epochMs : Int) : String :=
  "\x7b- " ++ name ++ " " ++ version ++ " " ++ toString epochMs ++ " -\x7d"

theorem sentinelText_ne_empty (name version : String) (epochMs : Int) :
    sentinelText name version epochMs ≠ "" := by
  intro h
  have := congrArg String.length h
  simp only [sentinelText, String.length_append] at this
  simp at this

/-- **The sentinel** of this program for a time in milliseconds. -/
def sentinel (epochMs : Int) : Sentinel :=
  ⟨sentinelText programName programVersion epochMs, sentinelText_ne_empty _ _ _⟩

/-- The whole milliseconds of a time in nanoseconds, rounded down. -/
def milliseconds (ns : Int) : Int := Int.fdiv ns 1000000

/-- A character inside a string literal. -/
def literalChar (c : Char) : List Char :=
  if c == '\\' || c == '"' then ['\\', c] else [c]

/-- **The command** that installs a sentinel as prompt. -/
def command (sentinel : String) : String :=
  String.ofList (":set prompt \"".toList ++ sentinel.toList.flatMap literalChar ++ ['\\', 'n', '"'])

end GhciRelay.Prompt
