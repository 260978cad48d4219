import GhciRelay.Json.Reader

/-!
# The JSON notation

What it is for a text to write a JSON value, said without a reader. A value has a sequence of tokens
(`tokensOf`); a token may be spelled in several ways (`Spelling`), as may the characters of a text
(`CharSpelling`) and the numbers (`NumberSpelling`); and blanks may stand around every token
(`Spelled`). A text is a *rendering* of a value if it spells the tokens of the value in one of these
ways and the value is not nested too deeply (`Rendering`).
-/

namespace GhciRelay.Json

open GhciRelay.Text (digitLimit)

/-! ### The tokens of a value -/

theorem sizeOf_member {m : String × Json} {members : List (String × Json)} (h : m ∈ members) :
    sizeOf m.2 < sizeOf (Json.object members) := by
  have hm := List.sizeOf_lt_of_mem h
  obtain ⟨key, v⟩ := m
  simp only [Prod.mk.sizeOf_spec, object.sizeOf_spec] at hm ⊢
  omega

/-- Parts of a list or an object, with commas between them. -/
def separated : List (List Token) → List Token
  | [] => []
  | part :: parts => part ++ parts.flatMap (.mark .comma :: ·)

/-- **The tokens of a value.** -/
def tokensOf : Json → List Token
  | .null => [.scalar .null]
  | .bool b => [.scalar (.bool b)]
  | .number n => [.scalar (.number n)]
  | .text s => [.scalar (.text s)]
  | .list items => .mark .openList :: (separated (items.map tokensOf) ++ [.mark .closeList])
  | .object members =>
    .mark .openObject :: (separated (members.map fun m =>
      .scalar (.text m.1) :: .mark .colon :: tokensOf m.2) ++ [.mark .closeObject])
decreasing_by
  · decreasing_tactic
  · exact sizeOf_member ‹_›

/-- **How deep** lists and objects are nested in a value. -/
def depth : Json → Nat
  | .list items => (items.map depth).foldr max 0 + 1
  | .object members => (members.map fun m => depth m.2).foldr max 0 + 1
  | _ => 0
decreasing_by
  · decreasing_tactic
  · exact sizeOf_member ‹_›

/-! ### Texts -/

/-- A character writes a hexadecimal digit, in either case. -/
def HexDigit (n : Nat) (c : Char) : Prop :=
  n < 16 ∧ (c = Nat.digitChar n ∨ c = (Nat.digitChar n).toUpper)

instance (n : Nat) (c : Char) : Decidable (HexDigit n c) :=
  inferInstanceAs (Decidable (n < 16 ∧ (c = Nat.digitChar n ∨ c = (Nat.digitChar n).toUpper)))

/-- **An escape by number** writes a code unit with four hexadecimal digits. -/
inductive UnitSpelling : Nat → List Char → Prop
  | digits {a b c d : Nat} {ca cb cc cd : Char} (ha : HexDigit a ca) (hb : HexDigit b cb)
    (hc : HexDigit c cc) (hd : HexDigit d cd) :
    UnitSpelling (((a * 16 + b) * 16 + c) * 16 + d) ['\\', 'u', ca, cb, cc, cd]

/-- The escapes of one letter, and what they stand for. -/
def shortEscapes : List (Char × Char) :=
  [('"', '"'), ('\\', '\\'), ('/', '/'), ('b', '\x08'), ('f', '\x0c'), ('n', '\n'), ('r', '\r'),
    ('t', '\t')]

/-- **The ways to write a character** inside a text: as it is, unless it is a control character, a
quote or a backslash; by a letter; or by its code units, of which there are two beyond the basic
plane. -/
inductive CharSpelling : Char → List Char → Prop
  | raw {c : Char} (printable : 0x20 ≤ c.toNat) (quote : c ≠ '"') (backslash : c ≠ '\\') :
    CharSpelling c [c]
  | short {letter c : Char} (escape : (letter, c) ∈ shortEscapes) : CharSpelling c ['\\', letter]
  | unit {c : Char} {cs : List Char} (basic : c.toNat < 0x10000) (units : UnitSpelling c.toNat cs) :
    CharSpelling c cs
  | pair {c : Char} {high low : List Char} (beyond : 0x10000 ≤ c.toNat)
    (first : UnitSpelling (0xd800 + (c.toNat - 0x10000) / 0x400) high)
    (second : UnitSpelling (0xdc00 + (c.toNat - 0x10000) % 0x400) low) : CharSpelling c (high ++ low)

/-- The ways to write the characters of a text one after the other. -/
inductive TextSpelling : List Char → List Char → Prop
  | nil : TextSpelling [] []
  | cons {c : Char} {s cs rest : List Char} (first : CharSpelling c cs) (more : TextSpelling s rest) :
    TextSpelling (c :: s) (cs ++ rest)

/-! ### Numbers -/

/-- The sign of a number. -/
def sign (negative : Bool) : List Char := if negative then ['-'] else []

/-- The point and the digits behind it, if there are any. -/
def point : List Char → List Char
  | [] => []
  | fraction => '.' :: fraction

/-- Digits, and nothing else. -/
def Digits (cs : List Char) : Prop := ∀ c ∈ cs, c.isDigit = true

instance (cs : List Char) : Decidable (Digits cs) := List.decidableBAll _ cs

/-- The number that digits write. -/
def valueOf (digits : List Char) : Nat := Nat.ofDigitChars 10 digits 0

/-- The ways to write an exponent. -/
inductive ExponentSpelling : Int → List Char → Prop
  | plain {ds : List Char} (digits : Digits ds) (some : ds ≠ []) : ExponentSpelling (valueOf ds) ds
  | plus {ds : List Char} (digits : Digits ds) (some : ds ≠ []) :
    ExponentSpelling (valueOf ds) ('+' :: ds)
  | minus {ds : List Char} (digits : Digits ds) (some : ds ≠ []) :
    ExponentSpelling (-(valueOf ds : Int)) ('-' :: ds)

/-- **The ways to write a number**: the digits in front of the point have no leading zero and are at
most `digitLimit` many; an integer has neither fraction nor exponent. -/
inductive NumberSpelling : Number → List Char → Prop
  | integer (negative : Bool) (n : Nat) (short : (Nat.toDigits 10 n).length ≤ digitLimit) :
    NumberSpelling (.integer (if negative then -(n : Int) else n)) (sign negative ++ Nat.toDigits 10 n)
  | fraction (negative : Bool) (n : Nat) (short : (Nat.toDigits 10 n).length ≤ digitLimit)
    {fraction : List Char} (digits : Digits fraction) (some : fraction ≠ []) :
    NumberSpelling
      (.decimal negative (valueOf (Nat.toDigits 10 n ++ fraction)) (-(fraction.length : Int)))
      (sign negative ++ (Nat.toDigits 10 n ++ point fraction))
  | exponent (negative : Bool) (n : Nat) (short : (Nat.toDigits 10 n).length ≤ digitLimit)
    {fraction es : List Char} {mark : Char} {e : Int} (digits : Digits fraction)
    (letter : mark = 'e' ∨ mark = 'E') (exponent : ExponentSpelling e es) :
    NumberSpelling
      (.decimal negative (valueOf (Nat.toDigits 10 n ++ fraction)) (e - fraction.length))
      (sign negative ++ (Nat.toDigits 10 n ++ (point fraction ++ mark :: es)))
  | nan : NumberSpelling .nan "NaN".toList
  | infinite (negative : Bool) :
    NumberSpelling (.infinite negative) (sign negative ++ "Infinity".toList)

/-! ### Documents -/

/-- The character that a mark is. -/
def Mark.char : Mark → Char
  | .openList => '['
  | .closeList => ']'
  | .openObject => '\x7b'
  | .closeObject => '\x7d'
  | .comma => ','
  | .colon => ':'

/-- **The ways to write a token.** -/
inductive Spelling : Token → List Char → Prop
  | mark (m : Mark) : Spelling (.mark m) [m.char]
  | text {s : String} {cs : List Char} (chars : TextSpelling s.toList cs) :
    Spelling (.scalar (.text s)) ('"' :: (cs ++ ['"']))
  | null : Spelling (.scalar .null) "null".toList
  | bool (b : Bool) : Spelling (.scalar (.bool b)) (if b then "true".toList else "false".toList)
  | number {n : Number} {cs : List Char} (number : NumberSpelling n cs) :
    Spelling (.scalar (.number n)) cs

/-- Blanks, and nothing else. -/
def Blanks (cs : List Char) : Prop := ∀ c ∈ cs, c ∈ [' ', '\t', '\r', '\n']

instance (cs : List Char) : Decidable (Blanks cs) := List.decidableBAll _ cs

/-- **The ways to write tokens** one after the other, with any blanks around them. -/
inductive Spelled : List Token → List Char → Prop
  | nil {blanks : List Char} (hb : Blanks blanks) : Spelled [] blanks
  | cons {blanks cs rest : List Char} {t : Token} {ts : List Token} (hb : Blanks blanks)
    (first : Spelling t cs) (more : Spelled ts rest) : Spelled (t :: ts) (blanks ++ (cs ++ rest))

/-- **A rendering of a value** spells its tokens; the value is not nested too deeply. -/
structure Rendering (v : Json) (cs : List Char) : Prop where
  shallow : depth v ≤ depthLimit
  spelled : Spelled (tokensOf v) cs

/-! ### The plain way -/

/-- The characters may stand in a text as they are. -/
def isRaw (c : Char) : Bool := 0x20 ≤ c.toNat && c != '"' && c != '\\'

/-- The token has a plain way to be written: no escapes are needed, and no decimals. -/
def Token.isPlain : Token → Bool
  | .mark _ => true
  | .scalar .null => true
  | .scalar (.bool _) => true
  | .scalar (.text s) => s.toList.all isRaw
  | .scalar (.number (.integer n)) => (Nat.toDigits 10 n.natAbs).length ≤ digitLimit
  | _ => false

/-- The plain way to write a token. -/
def Token.plain : Token → List Char
  | .mark m => [m.char]
  | .scalar .null => "null".toList
  | .scalar (.bool b) => if b then "true".toList else "false".toList
  | .scalar (.text s) => '"' :: (s.toList ++ ['"'])
  | .scalar (.number (.integer n)) => sign (n < 0) ++ Nat.toDigits 10 n.natAbs
  | _ => []

theorem TextSpelling.raw_append {more cs : List Char} (h : TextSpelling more cs) :
    ∀ s : List Char, s.all isRaw = true → TextSpelling (s ++ more) (s ++ cs)
  | [], _ => h
  | c :: s, hs => by
    rw [List.all_cons, Bool.and_eq_true] at hs
    have hc : (0x20 ≤ c.toNat ∧ c ≠ '"') ∧ c ≠ '\\' := by simpa [isRaw] using hs.1
    have hraw := TextSpelling.cons (.raw hc.1.1 hc.1.2 hc.2) (h.raw_append s hs.2)
    exact hraw

theorem textSpelling_raw (s : List Char) (h : s.all isRaw = true) : TextSpelling s s := by
  have hraw := TextSpelling.nil.raw_append s h
  rwa [List.append_nil] at hraw

theorem spelling_plain {t : Token} (h : t.isPlain = true) : Spelling t t.plain := by
  match t with
  | .mark m => exact .mark m
  | .scalar .null => exact .null
  | .scalar (.bool b) => exact .bool b
  | .scalar (.text s) => exact .text (textSpelling_raw s.toList h)
  | .scalar (.number (.integer n)) =>
    have hn : n = if decide (n < 0) = true then -(n.natAbs : Int) else n.natAbs := by
      by_cases h₀ : n < 0
      · rw [if_pos (decide_eq_true h₀)]
        omega
      · rw [if_neg (by simp [h₀])]
        omega
    have hs := NumberSpelling.integer (decide (n < 0)) n.natAbs (of_decide_eq_true h)
    rw [← hn] at hs
    exact .number hs
  | .scalar (.number (.decimal _ _ _)) => cases h
  | .scalar (.number .nan) => cases h
  | .scalar (.number (.infinite _)) => cases h
  | .scalar (.list _) => cases h
  | .scalar (.object _) => cases h

/-- Tokens that are written plainly may stand in front of what is written in any way. -/
theorem Spelled.plain {us : List Token} {rest : List Char} (more : Spelled us rest) :
    ∀ ts : List Token, (∀ t ∈ ts, t.isPlain = true) →
      Spelled (ts ++ us) (ts.flatMap Token.plain ++ rest)
  | [], _ => more
  | t :: ts, h => by
    have hnone : Blanks [] := by decide
    have hmore := Spelled.plain more ts fun u hu => h u (by simp [hu])
    have hall := Spelled.cons hnone (spelling_plain (h t (by simp))) hmore
    rwa [List.nil_append, ← List.append_assoc, ← List.flatMap_cons] at hall

end GhciRelay.Json
