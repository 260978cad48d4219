import GhciRelay.OrderedMap
import GhciRelay.Text.Blank
import GhciRelay.Text.Quoted

/-!
# Environment files

A file of bindings `name = value`, one to a line, with blank lines and comments between them. The
word `export` may stand in front of a name. A value in quotes may hold blanks, escapes and line feeds;
a value without quotes ends at a comment or at the end of its line and loses the blanks at its end. A
name without an equals sign is bound to nothing. A line that is none of this is skipped.

A value may refer to a variable as `${name}` or `${name:-default}`. It then means what the file has
bound to the name before, or else what the environment has.
-/

namespace GhciRelay.EnvFile

open GhciRelay.Text

/-- A name and the value that it is bound to, as they stand in the file. -/
structure Binding where
  name : Option (List Char)
  value : Option (List Char)

/-- What a reader returns: a value and the rest of the text, or the text at which it gave up. -/
abbrev Reading (α : Type) := Except (List Char) (α × List Char)

/-- A blank that does not end the line. -/
def isGap (c : Char) : Bool := isBlank c && c != '\n'

/-- The text without the gap at its beginning. -/
def skipGap (s : List Char) : List Char := s.dropWhile isGap

/-- The text from its next line feed on. -/
def toLineEnd (s : List Char) : List Char := s.dropWhile (· != '\n')

/-- Every line end is a line feed. -/
def unifyLineEnds : List Char → List Char
  | [] => []
  | '\r' :: '\n' :: rest => '\n' :: unifyLineEnds rest
  | c :: rest => (if c == '\r' then '\n' else c) :: unifyLineEnds rest

/-! ### Names -/

/-- The text without the word `export` and the gap after it. -/
def skipExport (s : List Char) : List Char :=
  let word := "export".toList
  if word.isPrefixOf s then
    let rest := s.drop word.length
    if (rest.head?.map isGap).getD false then skipGap rest else s
  else s

/-- The character can stand in a name without quotes. -/
def isNameChar (c : Char) : Bool := c != '=' && c != '#' && !isBlank c

/-- A name, in single quotes or bare; a comment has none. -/
def readName (s : List Char) : Reading (Option (List Char)) :=
  match s with
  | '#' :: _ => .ok (none, s)
  | c :: rest =>
    if c == apostrophe then
      match rest.takeWhile (· != apostrophe), rest.dropWhile (· != apostrophe) with
      | [], _ => .error s
      | _, [] => .error s
      | name, _ :: rest' => .ok (some name, rest')
    else
      match s.takeWhile isNameChar with
      | [] => .error s
      | name => .ok (some name, s.dropWhile isNameChar)
  | [] => .error s

/-! ### Values -/

/-- What stands before the closing quote, and what follows it. A quote after a backslash closes only
if no other quote does; `held` is the text so far, the last character first, and `last` is how the
text divides at the last such quote. -/
def untilQuote (quote : Char) (held : List Char) (last : Option (List Char × List Char)) :
    List Char → Option (List Char × List Char)
  | [] => last
  | '\\' :: c :: rest =>
    if c == quote then
      untilQuote quote (c :: '\\' :: held) (some (('\\' :: held).reverse, rest)) rest
    else untilQuote quote ('\\' :: held) last (c :: rest)
  | c :: rest =>
    if c == quote then some (held.reverse, rest) else untilQuote quote (c :: held) last rest

/-- The character that a backslash and `c` mean between single quotes. -/
def singleEscape? (c : Char) : Option Char :=
  if c == '\\' || c == apostrophe then some c else none

/-- The character that a backslash and `c` mean between double quotes. -/
def doubleEscape? (c : Char) : Option Char :=
  match c with
  | 'a' => some (Char.ofNat 0x07)
  | 'b' => some (Char.ofNat 0x08)
  | 't' => some '\t'
  | 'n' => some '\n'
  | 'v' => some (Char.ofNat 0x0b)
  | 'f' => some (Char.ofNat 0x0c)
  | 'r' => some '\r'
  | _ => if c == '"' then some c else singleEscape? c

/-- The text with its escapes resolved. -/
def unescape (escape? : Char → Option Char) : List Char → List Char
  | [] => []
  | '\\' :: c :: rest =>
    match escape? c with
    | some d => d :: unescape escape? rest
    | none => '\\' :: unescape escape? (c :: rest)
  | c :: rest => c :: unescape escape? rest

/-- The text up to a comment, which begins with a number sign after a blank. -/
def beforeComment (afterBlank : Bool) : List Char → List Char
  | [] => []
  | c :: rest => if afterBlank && c == '#' then [] else c :: beforeComment (isBlank c) rest

/-- A value. -/
def readValue (s : List Char) : Reading (List Char) :=
  match s with
  | [] => .ok ([], s)
  | c :: rest =>
    if c == apostrophe then
      match untilQuote c [] none rest with
      | some (value, rest') => .ok (unescape singleEscape? value, rest')
      | none => .error s
    else if c == '"' then
      match untilQuote c [] none rest with
      | some (value, rest') => .ok (unescape doubleEscape? value, rest')
      | none => .error s
    else .ok (trimEnd isBlank (beforeComment false (s.takeWhile (· != '\n'))), toLineEnd s)

/-! ### Bindings -/

/-- What follows the line, which may have nothing left but a comment. -/
def endLine (s : List Char) : Except (List Char) (List Char) :=
  let afterComment := if (skipGap s).head? = some '#' then toLineEnd s else s
  match skipGap afterComment with
  | [] => .ok []
  | '\n' :: rest => .ok rest
  | _ => .error afterComment

/-- One binding, at the beginning of a text that does not begin with a blank. -/
def readBinding (s : List Char) : Except (List Char) (Binding × List Char) := do
  let (name, s) ← readName (skipExport s)
  match skipGap s with
  | '=' :: rest =>
    let (value, s) ← readValue (skipGap rest)
    return (⟨name, some value⟩, ← endLine s)
  | s => return (⟨name, none⟩, ← endLine s)

/-- The bindings of a text, of which at most `fuel` lines are read. -/
def readBindings : Nat → List Char → List Binding
  | 0, _ => []
  | fuel + 1, s =>
    match s.dropWhile isBlank with
    | [] => []
    | s =>
      match readBinding s with
      | .ok (b, rest) => b :: readBindings fuel rest
      | .error rest => readBindings fuel (toLineEnd rest)

/-! ### References -/

/-- A name, its default, and what follows the brace that closes the reference. -/
def reference? (s : List Char) : Option (List Char × List Char × List Char) :=
  let name := s.takeWhile fun c => c != '\x7d' && c != ':'
  match s.drop name.length with
  | '\x7d' :: rest => some (name, [], rest)
  | ':' :: '-' :: s' =>
    let default := s'.takeWhile (· != '\x7d')
    match s'.drop default.length with
    | _ :: rest => some (name, default, rest)
    | [] => none
  | _ => none

/-- A text with its references resolved; every step takes one of `fuel`. -/
def expand (meaning : String → Option String) : Nat → List Char → List Char
  | 0, _ => []
  | _, [] => []
  | fuel + 1, '$' :: '\x7b' :: s =>
    match reference? s with
    | some (name, default, rest) =>
      ((meaning (String.ofList name)).map String.toList).getD default ++ expand meaning fuel rest
    | none => '$' :: expand meaning fuel ('\x7b' :: s)
  | fuel + 1, c :: rest => c :: expand meaning fuel rest

/-- What names are bound to; nothing, if there is no equals sign. -/
abbrev Values := OrderedMap String (Option String)

/-- The meaning of a name that a value refers to. A name that is bound to nothing means the empty
text. -/
def meaning (environment : List (String × String)) (values : Values) (name : String) :
    Option String :=
  match values.get? name with
  | some value => some (value.getD "")
  | none => environment.lookup name

/-- The values with one binding more. -/
def bind (environment : List (String × String)) (values : Values) (b : Binding) : Values :=
  match b.name with
  | none => values
  | some name =>
    values.insert (String.ofList name)
      (b.value.map fun v => String.ofList (expand (meaning environment values) v.length v))

/-- **The values of an environment file**, in order; a name that is bound again keeps its place. -/
def read (environment : List (String × String)) (text : String) : Values :=
  let s := unifyLineEnds text.toList
  (readBindings s.length s).foldl (bind environment) .empty

end GhciRelay.EnvFile
