import GhciRelay.Output.Prompt
import Mathlib.Data.List.Basic

/-!
# Reading the prompt command back

The command that installs a sentinel holds it as a string literal. `Means` says what the inside of a
literal means: a backslash and the character behind it are one character, every other character is
itself, and a quote stands only behind a backslash. A literal is read from behind its opening quote
to the first quote that is not escaped (`readLiteral`), and whatever means a text is read as that
text (`Means.read`).

The sentinel is escaped by replacing characters all over the text, first the backslashes and then
the quotes. The second replacement puts backslashes of its own into what the first one made, but
none of them is replaced again, so that both together are one pass over the text
(`replaced_eq_flatMap`). What one character becomes in that pass means this character, whatever
stands around it; so the command is read back exactly (`command_read_back`).
-/

namespace GhciRelay.Prompt

/-! ### String literals -/

/-- What a character means behind a backslash, if it may stand there. -/
def escaped? : Char → Option Char
  | '\\' => some '\\'
  | '"' => some '"'
  | 'n' => some '\n'
  | _ => none

/-- **The meaning of the inside of a literal.** -/
inductive Means : List Char → List Char → Prop
  | nothing : Means [] []
  | plain {c : Char} {body text : List Char} (unquoted : c ≠ '"') (bare : c ≠ '\\')
    (more : Means body text) : Means (c :: body) (c :: text)
  | escape {c d : Char} {body text : List Char} (escaped : escaped? c = some d)
    (more : Means body text) : Means ('\\' :: c :: body) (d :: text)

/-- Why a literal cannot be read: it is never closed, or something stands behind a backslash that
may not stand there. -/
inductive Fault where
  | unclosed
  | badEscape (c : Char)
deriving DecidableEq

/-- Reading inside a literal, one character after the other. The flag tells whether a backslash
stands right before them. -/
def readFrom : Bool → List Char → Except Fault (List Char × List Char)
  | _, [] => .error .unclosed
  | true, c :: cs =>
    match escaped? c with
    | none => .error (.badEscape c)
    | some d => (readFrom false cs).map (Prod.map (d :: ·) id)
  | false, c :: cs =>
    if c = '"' then .ok ([], cs)
    else if c = '\\' then readFrom true cs
    else (readFrom false cs).map (Prod.map (c :: ·) id)

/-- **Reading a literal** from behind its opening quote: what it means, and what follows its closing
quote. -/
def readLiteral (cs : List Char) : Except Fault (List Char × List Char) := readFrom false cs

namespace Means

variable {body text : List Char}

theorem append (h : Means body text) {body' text' : List Char} (h' : Means body' text') :
    Means (body ++ body') (text ++ text') := by
  induction h with
  | nothing => exact h'
  | plain unquoted bare _ ih => exact .plain unquoted bare ih
  | escape escaped _ ih => exact .escape escaped ih

/-- **What means a text is read as that text**, to the quote behind it and not further. -/
theorem read (h : Means body text) (rest : List Char) :
    readLiteral (body ++ '"' :: rest) = .ok (text, rest) := by
  rw [readLiteral]
  induction h with
  | nothing => rfl
  | plain unquoted bare _ ih =>
    rw [List.cons_append, readFrom, if_neg unquoted, if_neg bare, ih]
    rfl
  | escape escaped _ ih =>
    rw [List.cons_append, List.cons_append, readFrom, if_neg (by decide), if_pos rfl, readFrom,
      escaped]
    simp only [ih]
    rfl

theorem unique (h : Means body text) {text' : List Char} (h' : Means body text') :
    text = text' := by
  have hread := (h.read []).symm.trans (h'.read [])
  simpa using hread

end Means

/-! ### Escaping -/

/-- A character all over a text replaced by other characters. -/
def replaced (c : Char) (instead text : List Char) : List Char :=
  text.flatMap fun d => if d = c then instead else [d]

theorem literalChar_of_ne {c : Char} (hb : c ≠ '\\') (hq : c ≠ '"') : literalChar c = [c] := by
  simp [literalChar, hb, hq]

/-- **Two replacements in one pass.** In the other order the backslash before a quote would be
replaced too, and the quote behind it would close the literal. -/
theorem replaced_eq_flatMap (text : List Char) :
    replaced '"' ['\\', '"'] (replaced '\\' ['\\', '\\'] text) = text.flatMap literalChar := by
  rw [replaced, replaced, List.flatMap_assoc]
  refine List.flatMap_congr fun c _ => ?_
  -- only a quote is left for the second replacement: the first one makes backslashes
  by_cases hb : c = '\\'
  · subst hb
    rfl
  · by_cases hq : c = '"'
    · subst hq
      rfl
    · simp [literalChar_of_ne, hb, hq]

theorem means_literalChar (c : Char) : Means (literalChar c) [c] := by
  by_cases hb : c = '\\'
  · subst hb
    exact .escape rfl .nothing
  · by_cases hq : c = '"'
    · subst hq
      exact .escape rfl .nothing
    · rw [literalChar_of_ne hb hq]
      exact .plain hq hb .nothing

theorem means_flatMap : ∀ text : List Char, Means (text.flatMap literalChar) text
  | [] => .nothing
  | c :: text => (means_literalChar c).append (means_flatMap text)

/-! ### The command -/

/-- The command up to the opening quote of its literal. -/
def opening : List Char := ":set prompt \"".toList

/-- The literal of a sentinel, without its quotes: the sentinel with all backslashes and then all
quotes replaced, and the escape for a line feed. -/
def literalOf (sentinel : String) : List Char :=
  replaced '"' ['\\', '"'] (replaced '\\' ['\\', '\\'] sentinel.toList) ++ ['\\', 'n']

theorem toList_command (sentinel : String) :
    (command sentinel).toList = opening ++ (literalOf sentinel ++ ['"']) := by
  unfold command opening
  rw [String.toList_ofList, literalOf, replaced_eq_flatMap]
  simp only [List.append_assoc, List.cons_append, List.nil_append]

/-- **The literal means the sentinel and a line feed.** -/
theorem means_literalOf (sentinel : String) :
    Means (literalOf sentinel) (sentinel.toList ++ ['\n']) := by
  have hlineFeed : Means ['\\', 'n'] ['\n'] := .escape rfl .nothing
  rw [literalOf, replaced_eq_flatMap]
  exact (means_flatMap sentinel.toList).append hlineFeed

/-- **The command is read back exactly.** For every sentinel the command is its opening, the
sentinel with its backslashes and then its quotes replaced, the escape for a line feed and a quote.
Read behind the opening it shows no fault: the literal is closed by the last character of the
command, and means the sentinel and one line feed. So a sentinel is known from its command. -/
theorem command_read_back (sentinel : String) :
    (command sentinel).toList = opening ++ (literalOf sentinel ++ ['"']) ∧
      readLiteral (literalOf sentinel ++ ['"']) = .ok (sentinel.toList ++ ['\n'], []) ∧
      ∀ other : String, command other = command sentinel ↔ other = sentinel := by
  refine ⟨toList_command sentinel, (means_literalOf sentinel).read [], fun other => ?_⟩
  constructor
  · intro h
    have hlists := congrArg String.toList h
    rw [toList_command, toList_command, List.append_cancel_left_eq,
      List.append_cancel_right_eq] at hlists
    have hother := means_literalOf other
    rw [hlists] at hother
    have htexts := hother.unique (means_literalOf sentinel)
    rw [List.append_cancel_right_eq] at htexts
    exact String.toList_inj.mp htexts
  · rintro rfl
    rfl

end GhciRelay.Prompt
