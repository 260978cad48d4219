import GhciRelay.Text.Blank
import GhciRelay.Text.Digit

/-!
# Compile banners

Before it compiles a module the interpreter prints a banner

    `[ 3 of 12] Compiling Data.Thing ( lib/Data/Thing.hs, interpreted )`

with the position of the module among all modules, its name and the path of its source. A name is a
run of characters that are no blanks, and spaces may divide it from the bracket before the path. As
the bracket is no blank either, a name and a bracket without a space between them are one run; so
there are two readings, of which the one with the longer name is preferred.
-/

namespace GhciRelay

/-- **A compile banner.** -/
structure Banner where
  index : Nat
  total : Nat
  moduleName : String
  sourcePath : String
deriving DecidableEq

namespace Banner

open GhciRelay.Text

/-- The four variable parts of a banner, as they are written. -/
structure Parts where
  index : List Char
  total : List Char
  moduleName : List Char
  sourcePath : List Char
deriving DecidableEq

/-- What follows `start` in a text that begins with it. -/
def after? (start s : List Char) : Option (List Char) :=
  if start.isPrefixOf s then some (s.drop start.length) else none

/-- A run of at least one digit and what follows it. -/
def digits? (s : List Char) : Option (List Char × List Char) :=
  match s.span isDigit with
  | ([], _) => none
  | (run, rest) => some (run, rest)

/-- The path in a text that begins with the opening bracket: up to the first comma, which a space
must follow. -/
def path? (s : List Char) : Option (List Char) :=
  match after? ['(', ' '] s with
  | none => none
  | some inner =>
    match inner.span (· != ',') with
    | ([], _) => none
    | (path, ',' :: ' ' :: _) => some path
    | _ => none

/-- The name and the path, if the name is the whole run of characters that are no blanks. -/
def wholeRun? (run rest : List Char) : Option (List Char × List Char) :=
  if run.isEmpty then none
  else (path? (rest.dropWhile (· == ' '))).map fun path => (run, path)

/-- The name and the path, if the last character of the run is the opening bracket. -/
def bracketRun? (run rest : List Char) : Option (List Char × List Char) :=
  if run.dropLast.isEmpty || run.getLast? != some '(' then none
  else (path? ('(' :: rest)).map fun path => (run.dropLast, path)

/-- The name and the path in what follows the word `Compiling`. -/
def nameAndPath? (s : List Char) : Option (List Char × List Char) :=
  let (run, rest) := s.span (!isBlank ·)
  (wholeRun? run rest).or (bracketRun? run rest)

/-- **The parts of the banner** at the beginning of a text. -/
def parts? (s : List Char) : Option Parts := do
  let s ← after? ['['] s
  let (index, s) ← digits? (s.dropWhile (· == ' '))
  let s ← after? " of ".toList s
  let (total, s) ← digits? s
  let s ← after? "] Compiling ".toList s
  let (moduleName, sourcePath) ← nameAndPath? s
  some ⟨index, total, moduleName, sourcePath⟩

/-- The banner with the given parts, if its numbers can be read. -/
def ofParts (p : Parts) : Except TooManyDigits Banner := do
  let index ← boundedNumber p.index
  let total ← boundedNumber p.total
  return ⟨index, total, String.ofList p.moduleName, String.ofList p.sourcePath⟩

/-- **Reading a banner**: nothing if the text does not begin with one, an error if it does but has a
number of too many digits. -/
def read (s : List Char) : Except TooManyDigits (Option Banner) :=
  match parts? s with
  | none => .ok none
  | some p => (ofParts p).map some

end Banner

end GhciRelay
