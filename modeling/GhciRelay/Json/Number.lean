import GhciRelay.Json.Basic
import GhciRelay.Text.Digit

/-!
# JSON numbers as texts

A number is an optional minus sign, digits without a superfluous leading zero, and optionally a
fraction and an exponent. The words `NaN`, `Infinity` and `-Infinity` are numbers too. The digits in
front of the fraction may be at most `digitLimit` many.
-/

namespace GhciRelay.Json.Number

open GhciRelay.Text

/-- The digits in front of the fraction are as JSON wants them. -/
def wellFormedWhole (whole : List Char) : Bool :=
  match whole with
  | [] => false
  | ['0'] => true
  | c :: _ => c != '0' && whole.length ≤ digitLimit

/-- The digits of a fraction and what follows it; `none` for a point without digits. -/
def splitFraction : List Char → Option (List Char × List Char)
  | '.' :: rest =>
    match rest.span isAsciiDigit with
    | ([], _) => none
    | (digits, rest') => some (digits, rest')
  | rest => some ([], rest)

/-- The exponent that a text writes behind its mark. -/
def exponentOf (rest : List Char) : Option Int :=
  let (negative, digits) :=
    match rest with
    | '-' :: digits => (true, digits)
    | '+' :: digits => (false, digits)
    | digits => (false, digits)
  if digits.isEmpty || !digits.all isAsciiDigit then none
  else if negative then some (-(numberOf digits : Int)) else some (numberOf digits)

/-- The exponent at the end of a number: `some none` if there is none. -/
def splitExponent : List Char → Option (Option Int)
  | [] => some none
  | 'e' :: rest => (exponentOf rest).map some
  | 'E' :: rest => (exponentOf rest).map some
  | _ => none

/-- The number that a text without sign writes. -/
def unsigned? (negative : Bool) (s : List Char) : Option Number :=
  let (whole, rest) := s.span isAsciiDigit
  if wellFormedWhole whole then
    match splitFraction rest with
    | none => none
    | some (fraction, rest') =>
      match splitExponent rest' with
      | none => none
      | some none =>
        if fraction.isEmpty then
          some (.integer (if negative then -(numberOf whole : Int) else numberOf whole))
        else some (.decimal negative (numberOf (whole ++ fraction)) (-(fraction.length : Int)))
      | some (some e) => some (.decimal negative (numberOf (whole ++ fraction)) (e - fraction.length))
  else none

/-- **The number** that a text writes. -/
def ofText? (s : List Char) : Option Number :=
  if s = "NaN".toList then some .nan
  else if s = "Infinity".toList then some (.infinite false)
  else if s = "-Infinity".toList then some (.infinite true)
  else
    match s with
    | '-' :: rest => unsigned? true rest
    | rest => unsigned? false rest

end GhciRelay.Json.Number
