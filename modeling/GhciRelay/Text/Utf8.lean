/-!
# UTF-8

A text is written as bytes by `encode`, one to four bytes a character. Bytes are read by a machine
that takes one byte at a time and never fails: `State` says which bytes may come next, and a byte
that may not come ends the unfinished character, which then counts as one replacement character,
and is itself read afresh. So every maximal ill-formed piece becomes one U+FFFD.
-/

namespace GhciRelay.Text.Utf8

/-- Where the reader stands: between characters, or inside one that still misses `missing` bytes,
the next of them from `low` to `high`, and whose bits so far are `code`. -/
inductive State where
  | start
  | inside (missing low high code : Nat)
deriving DecidableEq

/-- The character that stands for an ill-formed piece. -/
def replacement : Char := Char.ofNat 0xfffd

/-- A byte read between characters. -/
def lead (b : Nat) : State × List Char :=
  if b < 0x80 then (.start, [Char.ofNat b])
  else if b < 0xc2 then (.start, [replacement])
  else if b < 0xe0 then (.inside 1 0x80 0xbf (b - 0xc0), [])
  else if b = 0xe0 then (.inside 2 0xa0 0xbf 0, [])
  else if b = 0xed then (.inside 2 0x80 0x9f 0xd, [])
  else if b < 0xf0 then (.inside 2 0x80 0xbf (b - 0xe0), [])
  else if b = 0xf0 then (.inside 3 0x90 0xbf 0, [])
  else if b < 0xf4 then (.inside 3 0x80 0xbf (b - 0xf0), [])
  else if b = 0xf4 then (.inside 3 0x80 0x8f 4, [])
  else (.start, [replacement])

/-- **One byte**: the next state and the characters completed by the byte. -/
def step : State → Nat → State × List Char
  | .start, b => lead b
  | .inside missing low high code, b =>
    if low ≤ b ∧ b ≤ high then
      let code' := code * 64 + (b - 0x80)
      if missing ≤ 1 then (.start, [Char.ofNat code']) else (.inside (missing - 1) 0x80 0xbf code', [])
    else
      let (state, cs) := lead b
      (state, replacement :: cs)

/-- What the end of the input leaves of an unfinished character. -/
def finish : State → List Char
  | .start => []
  | .inside .. => [replacement]

/-- The characters read so far, the last one first, followed by those of the remaining bytes. -/
def decodeFrom (state : State) (done : List Char) : List UInt8 → List Char
  | [] => (finish state ++ done).reverse
  | b :: bs =>
    let (state', cs) := step state b.toNat
    decodeFrom state' (cs.reverse ++ done) bs

/-- **Reading** bytes as a text. -/
def decode (bytes : List UInt8) : List Char := decodeFrom .start [] bytes

/-- The bytes of one character. -/
def encodeChar (c : Char) : List UInt8 :=
  let n := c.toNat
  let tail (k : Nat) : UInt8 := UInt8.ofNat (0x80 + k % 64)
  if n < 0x80 then [UInt8.ofNat n]
  else if n < 0x800 then [UInt8.ofNat (0xc0 + n / 64), tail n]
  else if n < 0x10000 then [UInt8.ofNat (0xe0 + n / 4096), tail (n / 64), tail n]
  else [UInt8.ofNat (0xf0 + n / 262144), tail (n / 4096), tail (n / 64), tail n]

/-- **Writing** a text as bytes. -/
def encode (s : List Char) : List UInt8 := s.flatMap encodeChar

end GhciRelay.Text.Utf8
