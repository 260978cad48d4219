import GhciRelay.Json.Number

/-!
# JSON tokens

A document is cut into tokens by a machine that takes one character at a time. Between tokens the
machine skips blanks and takes the six marks. Inside a text it takes characters and escapes; two
`\u` escapes that are a high and a low surrogate are one character, and a surrogate without its
partner is refused. Any other character belongs to a *word*: a word ends before the next blank, mark
or quote and must then be `true`, `false`, `null` or a number.
-/

namespace GhciRelay.Json

/-- The six marks of the notation. -/
inductive Mark where
  | openList
  | closeList
  | openObject
  | closeObject
  | comma
  | colon
deriving DecidableEq

/-- A mark, or a value without parts. -/
inductive Token where
  | mark (m : Mark)
  | scalar (value : Json)

/-- Where the machine stands. The characters of an unfinished word or text are kept the last one
first; `high` is a high surrogate that waits for its partner. -/
inductive LexState where
  | between
  | word (seen : List Char)
  | text (seen : List Char)
  | escape (seen : List Char)
  | unit (seen : List Char) (high : Option Nat) (digits value : Nat)
  | afterHigh (seen : List Char) (high : Nat)
  | afterHighEscape (seen : List Char) (high : Nat)

/-- The blanks of the notation. -/
def isBlank (c : Char) : Bool := c == ' ' || c == '\t' || c == '\r' || c == '\n'

/-- The mark that a character is. -/
def mark? : Char → Option Mark
  | '[' => some .openList
  | ']' => some .closeList
  | '\x7b' => some .openObject
  | '\x7d' => some .closeObject
  | ',' => some .comma
  | ':' => some .colon
  | _ => none

/-- The value of a hexadecimal digit. -/
def hexDigit? (c : Char) : Option Nat :=
  if '0' ≤ c ∧ c ≤ '9' then some (c.toNat - '0'.toNat)
  else if 'a' ≤ c ∧ c ≤ 'f' then some (c.toNat - 'a'.toNat + 10)
  else if 'A' ≤ c ∧ c ≤ 'F' then some (c.toNat - 'A'.toNat + 10)
  else none

/-- The character that an escape of one letter stands for. -/
def escaped? : Char → Option Char
  | '"' => some '"'
  | '\\' => some '\\'
  | '/' => some '/'
  | 'b' => some '\x08'
  | 'f' => some '\x0c'
  | 'n' => some '\n'
  | 'r' => some '\r'
  | 't' => some '\t'
  | _ => none

/-- The scalar that a word is. -/
def wordValue? (w : List Char) : Option Json :=
  if w = "true".toList then some (.bool true)
  else if w = "false".toList then some (.bool false)
  else if w = "null".toList then some .null
  else (Number.ofText? w).map .number

/-- The state after the four digits of an escape. -/
def unitEnd (seen : List Char) (high : Option Nat) (value : Nat) : Option LexState :=
  match high with
  | some h =>
    if 0xdc00 ≤ value ∧ value < 0xe000 then
      some (.text (Char.ofNat (0x10000 + (h - 0xd800) * 0x400 + (value - 0xdc00)) :: seen))
    else none
  | none =>
    if 0xd800 ≤ value ∧ value < 0xdc00 then some (.afterHigh seen value)
    else if 0xdc00 ≤ value ∧ value < 0xe000 then none
    else some (.text (Char.ofNat value :: seen))

/-- A character read between tokens. -/
def lexBetween (c : Char) : LexState × List Token :=
  if isBlank c then (.between, [])
  else if c == '"' then (.text [], [])
  else
    match mark? c with
    | some m => (.between, [.mark m])
    | none => (.word [c], [])

/-- **One character**: the next state and the tokens that end here, the last one first. -/
def lexStep : LexState → Char → Option (LexState × List Token)
  | .between, c => some (lexBetween c)
  | .word seen, c =>
    if isBlank c || c == '"' || (mark? c).isSome then
      match wordValue? seen.reverse with
      | some v =>
        let (state, tokens) := lexBetween c
        some (state, tokens ++ [.scalar v])
      | none => none
    else some (.word (c :: seen), [])
  | .text seen, c =>
    if c == '"' then some (.between, [.scalar (.text (String.ofList seen.reverse))])
    else if c == '\\' then some (.escape seen, [])
    else if c.toNat < 0x20 then none
    else some (.text (c :: seen), [])
  | .escape seen, c =>
    if c == 'u' then some (.unit seen none 0 0, [])
    else (escaped? c).map fun e => (.text (e :: seen), [])
  | .unit seen high digits value, c =>
    match hexDigit? c with
    | none => none
    | some d =>
      if digits < 3 then some (.unit seen high (digits + 1) (value * 16 + d), [])
      else (unitEnd seen high (value * 16 + d)).map fun state => (state, [])
  | .afterHigh seen high, c => if c == '\\' then some (.afterHighEscape seen high, []) else none
  | .afterHighEscape seen high, c => if c == 'u' then some (.unit seen (some high) 0 0, []) else none

/-- The end of the document: the tokens that end here, if the machine may stop. -/
def lexEnd : LexState → Option (List Token)
  | .between => some []
  | .word seen => (wordValue? seen.reverse).map fun v => [.scalar v]
  | _ => none

/-- The tokens of the remaining characters after those already found, which are kept the last one
first. -/
def lexFrom (state : LexState) (found : List Token) : List Char → Option (List Token)
  | [] => (lexEnd state).map fun last => (last ++ found).reverse
  | c :: cs =>
    match lexStep state c with
    | none => none
    | some (state', tokens) => lexFrom state' (tokens ++ found) cs

/-- **The tokens of a document**, or `none` if some piece of it is no token. -/
def tokens? (s : List Char) : Option (List Token) := lexFrom .between [] s

end GhciRelay.Json
