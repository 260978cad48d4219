/-!
# Paths

A path is a number of leading slashes and a list of segments. Two leading slashes mean something of
their own and are kept; any other positive number counts as one. Empty segments and `.` segments say
nothing and are dropped when a path is read (`parse`). A `..` segment is resolved by `collapse`: it
takes away the segment before it, and at the beginning of an absolute path it is dropped. Symbolic
links are not looked at.
-/

namespace GhciRelay

/-- **A path**: how many slashes it begins with, and its segments. -/
structure Path where
  slashes : Nat
  segments : List (List Char)
deriving DecidableEq

namespace Path

/-- The segment that leads upwards. -/
def parent : List Char := ['.', '.']

/-- How many of the leading slashes of a text count. -/
def leadingSlashes : List Char → Nat
  | '/' :: '/' :: '/' :: _ => 1
  | '/' :: '/' :: _ => 2
  | '/' :: _ => 1
  | _ => 0

/-- One character more in front of segments. -/
def splitStep (c : Char) (segments : List (List Char)) : List (List Char) :=
  if c == '/' then [] :: segments
  else
    match segments with
    | [] => [[c]]
    | segment :: rest => (c :: segment) :: rest

/-- The pieces of a text between its slashes. -/
def splitSlash (s : List Char) : List (List Char) := s.foldr splitStep [[]]

/-- The segment says something. -/
def isProper (segment : List Char) : Bool := segment != [] && segment != ['.']

/-- **Reading a path**; `..` segments are kept. -/
def parse (s : List Char) : Path := ⟨leadingSlashes s, (splitSlash s).filter isProper⟩

/-- The path starts at the root directory. -/
def isAbsolute (p : Path) : Bool := p.slashes != 0

/-- One segment more, on the segments before it, the last one first. -/
def push (absolute : Bool) (stack : List (List Char)) (segment : List Char) : List (List Char) :=
  if segment = parent then
    match stack with
    | [] => if absolute then [] else [segment]
    | top :: rest => if top = parent then segment :: stack else rest
  else segment :: stack

/-- **Resolving `..` segments.** -/
def collapse (p : Path) : Path :=
  { p with segments := (p.segments.foldl (push p.isAbsolute) []).reverse }

/-- The path as a text; a path without anything is `.`. -/
def render (p : Path) : List Char :=
  match List.replicate p.slashes '/' ++ ['/'].intercalate p.segments with
  | [] => ['.']
  | s => s

/-- The normal form of a path. -/
def normalize (s : List Char) : List Char := (parse s).collapse.render

/-- The text of a directory without repeated slashes, `.` segments and a slash at its end. -/
def simplify (s : String) : String := String.ofList (parse s.toList).render

/-- A path as seen from a directory. -/
def join (base path : List Char) : List Char :=
  if path.head? = some '/' then path
  else if base.isEmpty || base.getLast? = some '/' then base ++ path
  else base ++ '/' :: path

end Path

end GhciRelay
