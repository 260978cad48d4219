/-!
# Decimal digits

A decimal digit of any script: Unicode lists the digits of a script in ten consecutive code points,
so a script is known by its zero. A number written in digits is read with the most significant
digit first; a text may hold at most `digitLimit` of them.
-/

namespace GhciRelay.Text

/-- The zeros of the scripts that have decimal digits. -/
def zeros : List Nat := [
  0x30, 0x660, 0x6f0, 0x7c0, 0x966, 0x9e6, 0xa66, 0xae6, 0xb66, 0xbe6, 0xc66, 0xce6, 0xd66,
  0xde6, 0xe50, 0xed0, 0xf20, 0x1040, 0x1090, 0x17e0, 0x1810, 0x1946, 0x19d0, 0x1a80, 0x1a90,
  0x1b50, 0x1bb0, 0x1c40, 0x1c50, 0xa620, 0xa8d0, 0xa900, 0xa9d0, 0xa9f0, 0xaa50, 0xabf0, 0xff10,
  0x104a0, 0x10d30, 0x11066, 0x110f0, 0x11136, 0x111d0, 0x112f0, 0x11450, 0x114d0, 0x11650,
  0x116c0, 0x11730, 0x118e0, 0x11950, 0x11c50, 0x11d50, 0x11da0, 0x16a60, 0x16ac0, 0x16b50,
  0x1d7ce, 0x1d7d8, 0x1d7e2, 0x1d7ec, 0x1d7f6, 0x1e140, 0x1e2f0, 0x1e950, 0x1fbf0]

/-- The value of a decimal digit, if `c` is one. -/
def digit? (c : Char) : Option Nat :=
  zeros.findSome? fun z => if z ≤ c.toNat ∧ c.toNat < z + 10 then some (c.toNat - z) else none

/-- `c` is a decimal digit of some script. -/
def isDigit (c : Char) : Bool := (digit? c).isSome

/-- The value of one of the ten ASCII digits. -/
def asciiDigit? (c : Char) : Option Nat :=
  if '0'.toNat ≤ c.toNat ∧ c.toNat ≤ '9'.toNat then some (c.toNat - '0'.toNat) else none

/-- `c` is one of the ten ASCII digits. -/
def isAsciiDigit (c : Char) : Bool := (asciiDigit? c).isSome

/-- **The number** that a list of digits writes, most significant digit first. -/
def number (digits : List Nat) : Nat := digits.foldl (fun n d => 10 * n + d) 0

/-- The number that a run of digit characters writes. -/
def numberOf (run : List Char) : Nat := number (run.filterMap digit?)

/-- The longest run of digits that is read as a number. -/
def digitLimit : Nat := 4300

/-- A run of `count` digits is longer than `digitLimit`. -/
structure TooManyDigits where
  count : Nat
deriving DecidableEq

/-- The words in which the excess is reported. -/
def TooManyDigits.message (e : TooManyDigits) : String :=
  "Exceeds the limit (4300 digits) for integer string conversion: value has " ++ toString e.count
    ++ " digits; use sys.set_int_max_str_digits() to increase the limit"

/-- The number that a run of digit characters writes, unless the run is too long. -/
def boundedNumber (run : List Char) : Except TooManyDigits Nat :=
  if run.length ≤ digitLimit then .ok (numberOf run) else .error ⟨run.length⟩

end GhciRelay.Text
