/-!
# Blank characters

Two classes of white space are told apart. A *space* has the Unicode property `White_Space`; a
*blank* is a space or one of the four information separators U+001C to U+001F. Words are divided by
blanks, and texts are stripped of blanks at their ends; only integers written as texts are stripped
of spaces. A line end is a run of carriage returns and line feeds.
-/

namespace GhciRelay.Text

/-- `c` has the Unicode property `White_Space`. -/
def isSpace (c : Char) : Bool :=
  c == ' ' || (0x9 ≤ c.toNat && c.toNat ≤ 0xd) || c.toNat == 0x85 || c.toNat == 0xa0
    || c.toNat == 0x1680 || (0x2000 ≤ c.toNat && c.toNat ≤ 0x200a) || c.toNat == 0x2028
    || c.toNat == 0x2029 || c.toNat == 0x202f || c.toNat == 0x205f || c.toNat == 0x3000

/-- `c` is a space or an information separator. -/
def isBlank (c : Char) : Bool := isSpace c || (0x1c ≤ c.toNat && c.toNat ≤ 0x1f)

/-- `c` is a carriage return or a line feed. -/
def isLineEnd (c : Char) : Bool := c == '\r' || c == '\n'

/-- The text without its longest end in the class `p`. -/
def trimEnd (p : Char → Bool) (s : List Char) : List Char := (s.reverse.dropWhile p).reverse

/-- The text without its longest beginning and end in the class `p`. -/
def trim (p : Char → Bool) (s : List Char) : List Char := trimEnd p (s.dropWhile p)

/-- The text without blanks at its ends. -/
def strip (s : String) : String := String.ofList (trim isBlank s.toList)

/-- The text without the carriage returns and line feeds at its end. -/
def stripLineEnd (s : String) : String := String.ofList (trimEnd isLineEnd s.toList)

end GhciRelay.Text
