import GhciRelay.Text.Blank
import GhciRelay.Text.Digit

/-!
# Integers written as texts

An integer may be written with spaces around it, one sign, and single underscores between its
digits. Which characters count as digits is left open: a port number may use the digits of any
script, a coordinate only the ASCII ones.
-/

namespace GhciRelay.Text

/-- The digits of a text in which single underscores may stand between digits; `seen` holds the
digits before it, the last one first. -/
def groupedDigits? (digit : Char → Option Nat) (seen : List Nat) : List Char → Option (List Nat)
  | [] => none
  | c :: rest =>
    match digit c, rest with
    | none, _ => none
    | some d, [] => some (d :: seen).reverse
    | some d, '_' :: rest' => groupedDigits? digit (d :: seen) rest'
    | some d, c' :: rest' => groupedDigits? digit (d :: seen) (c' :: rest')

/-- Whether a minus sign stands in front, and what follows the sign. -/
def splitSign : List Char → Bool × List Char
  | '-' :: rest => (true, rest)
  | '+' :: rest => (false, rest)
  | rest => (false, rest)

/-- The integer with the given sign and digits. -/
def signed (negative : Bool) (digits : List Nat) : Int :=
  if negative then -(number digits : Int) else number digits

/-- **The integer** that a text writes in the digits of any script, with at most `digitLimit`
digits. -/
def integer? (s : String) : Option Int :=
  let (negative, body) := splitSign (trim isSpace s.toList)
  match groupedDigits? digit? [] body with
  | some digits => if digits.length ≤ digitLimit then some (signed negative digits) else none
  | none => none

end GhciRelay.Text
