import GhciRelay.Text.Printable

/-!
# Quoted texts

A value that is shown to the user in an error message stands in quotes, so that its ends and its
invisible characters can be seen. The quotes are single unless the text holds a single quote and no
double one. The quote itself and the backslash are escaped, and so is every character that is not
printable, by its shortest hexadecimal escape of two, four or eight digits.
-/

namespace GhciRelay.Text

/-- The single quote. -/
def apostrophe : Char := Char.ofNat 0x27

/-- The hexadecimal digits of `n`, filled with zeros up to `width`. -/
def hex (width n : Nat) : List Char := (Nat.toDigits 16 n).leftpad width '0'

/-- The hexadecimal escape of a character. -/
def hexEscape (c : Char) : List Char :=
  if c.toNat < 0x100 then '\\' :: 'x' :: hex 2 c.toNat
  else if c.toNat < 0x10000 then '\\' :: 'u' :: hex 4 c.toNat
  else '\\' :: 'U' :: hex 8 c.toNat

/-- How a character is written between the quotes `quote`. -/
def escape (quote c : Char) : List Char :=
  if c == quote || c == '\\' then ['\\', c]
  else if c == '\n' then ['\\', 'n']
  else if c == '\r' then ['\\', 'r']
  else if c == '\t' then ['\\', 't']
  else if isPrintable c then [c]
  else hexEscape c

/-- The quote that surrounds a text. -/
def quoteFor (s : List Char) : Char :=
  if s.contains apostrophe && !s.contains '"' then '"' else apostrophe

/-- **The text in quotes.** -/
def quoted (s : String) : String :=
  let cs := s.toList
  let q := quoteFor cs
  String.ofList (q :: cs.flatMap (escape q) ++ [q])

end GhciRelay.Text
