/-!
# Binary64 numbers

Two exact computations with binary64 numbers, both by rounding a quotient of naturals to the
nearest natural, a half to the even one. `integer? m e` is the integer that the binary64 number
nearest to `m · 10 ^ e` is, if it is one. `fixed places x` writes a number with a fixed number of
decimal places, rounded from its exact binary value.
-/

namespace GhciRelay.Binary64

/-- `num / den` rounded to the nearest natural, a half to the even one. -/
def roundDiv (num den : Nat) : Nat :=
  let q := num / den
  let r := num % den
  if den < 2 * r ∨ (2 * r = den ∧ q % 2 = 1) then q + 1 else q

/-- `num / den / 2 ^ k` rounded to a natural. -/
def roundScaled (num den : Nat) (k : Int) : Nat :=
  if 0 ≤ k then roundDiv num (den * Nat.pow 2 k.toNat)
  else roundDiv (num * Nat.pow 2 (-k).toNat) den

/-- The exponent `k` for which `num / den / 2 ^ k` has 53 binary digits. -/
def scale (num den : Nat) : Int :=
  let k := (Nat.log2 num : Int) - Nat.log2 den - 52
  let enough :=
    if 0 ≤ k then den * Nat.pow 2 (k.toNat + 52) ≤ num
    else den * Nat.pow 2 52 ≤ num * Nat.pow 2 (-k).toNat
  if enough then k else k - 1

/-- `mantissa · 2 ^ k` as a natural, if it is one. -/
def natural? (mantissa : Nat) (k : Int) : Option Nat :=
  if 0 ≤ k then some (mantissa * Nat.pow 2 k.toNat)
  else if mantissa % Nat.pow 2 (-k).toNat = 0 then some (mantissa / Nat.pow 2 (-k).toNat)
  else none

/-- The natural that the 53-digit binary number nearest to `num / den` is, if it is one. -/
def nearestNatural? (num den : Nat) : Option Nat :=
  let k := scale num den
  natural? (roundScaled num den k) k

/-- **The natural nearest to `m · 10 ^ e`** in binary64, if there the number has no fraction. Numbers
beyond `10 ^ 20` and below a tenth, which no coordinate can be, are refused before any power is
formed. -/
def integer? (m : Nat) (e : Int) : Option Nat :=
  if m = 0 then some 0
  else if 20 < e ∨ e < -((Nat.log2 m : Int) + 2) then none
  else if 0 ≤ e then nearestNatural? (m * Nat.pow 10 e.toNat) 1
  else nearestNatural? m (Nat.pow 10 (-e).toNat)

/-! ### Fixed places -/

/-- A number split into sign and value. -/
inductive Parts where
  | nan
  | infinite (negative : Bool)
  | finite (negative : Bool) (mantissa : Nat) (exponent : Int)

/-- The sign, mantissa and exponent of a number. -/
def parts (x : Float) : Parts :=
  let bits := x.toBits.toNat
  let negative := bits / Nat.pow 2 63 = 1
  let exponent : Nat := bits / Nat.pow 2 52 % 2048
  let fraction := bits % Nat.pow 2 52
  if exponent = 2047 then
    if fraction = 0 then .infinite negative else .nan
  else if exponent = 0 then .finite negative fraction (-1074)
  else .finite negative (fraction + Nat.pow 2 52) ((exponent : Int) - 1075)

/-- `n / 10 ^ places` in decimal notation. -/
def point (places n : Nat) : String :=
  let digits := (Nat.toDigits 10 n).leftpad (places + 1) '0'
  let whole := digits.length - places
  String.ofList (digits.take whole ++ '.' :: digits.drop whole)

/-- **A number with `places` decimal places.** -/
def fixed (places : Nat) (x : Float) : String :=
  match parts x with
  | .nan => "nan"
  | .infinite negative => if negative then "-inf" else "inf"
  | .finite negative m e =>
    let n :=
      if 0 ≤ e then m * Nat.pow 2 e.toNat * Nat.pow 10 places
      else roundDiv (m * Nat.pow 10 places) (Nat.pow 2 (-e).toNat)
    (if negative then "-" else "") ++ point places n

end GhciRelay.Binary64
