/-!
# JSON values

A JSON document as a value. Numbers keep the distinction that the documents make: an integer has
neither fraction nor exponent, a decimal has one of them. An object is the list of its members in
the order in which they stand; a key that is repeated means its last member.
-/

namespace GhciRelay

/-- A JSON number. A decimal stands for `± mantissa · 10 ^ exponent`. -/
inductive Json.Number where
  | integer (value : Int)
  | decimal (negative : Bool) (mantissa : Nat) (exponent : Int)
  | nan
  | infinite (negative : Bool)
deriving DecidableEq

/-- **A JSON value.** -/
inductive Json where
  | null
  | bool (value : Bool)
  | number (value : Json.Number)
  | text (value : String)
  | list (items : List Json)
  | object (members : List (String × Json))

namespace Json

/-- The last of the members with the given key. -/
def lookup (key : String) (members : List (String × Json)) : Option Json :=
  members.foldl (fun found m => if m.1 = key then some m.2 else found) none

/-- The member of an object; nothing else has members. -/
def get? (key : String) : Json → Option Json
  | .object members => lookup key members
  | _ => none

/-- The text, if the value is one. -/
def text? : Json → Option String
  | .text s => some s
  | _ => none

end Json

end GhciRelay
