import GhciRelay.Json.Token

/-!
# Reading JSON

The tokens of a document are put together by a machine with a stack. A frame is a list or an object
whose end has not come yet, with the parts that are complete; `Expect` says what may come next. A
document may nest lists and objects to a depth of `depthLimit`.
-/

namespace GhciRelay.Json

/-- An unfinished list or object. Complete parts are kept the last one first; an `entry` is an object
whose last key still waits for its value. -/
inductive Frame where
  | items (done : List Json)
  | members (done : List (String × Json))
  | entry (done : List (String × Json)) (key : String)

/-- What may come next. -/
inductive Expect where
  /-- a value -/
  | value
  /-- a value, or the end of the empty list -/
  | firstItem
  /-- a key, or the end of the empty object -/
  | firstKey
  /-- a key -/
  | key
  /-- the colon behind the key of the innermost entry -/
  | colon
  /-- a comma, or the end of the innermost list or object -/
  | next
  /-- nothing: the document is complete -/
  | nothing (result : Json)

/-- The deepest nesting of lists and objects that is read. -/
def depthLimit : Nat := 200

/-- A value is complete: it is the document, or goes into the innermost frame. -/
def complete (v : Json) : List Frame → Option (Expect × List Frame)
  | [] => some (.nothing v, [])
  | .items done :: stack => some (.next, .items (v :: done) :: stack)
  | .entry done key :: stack => some (.next, .members ((key, v) :: done) :: stack)
  | .members _ :: _ => none

/-- A list or an object begins. -/
def enter (expect : Expect) (frame : Frame) (stack : List Frame) : Option (Expect × List Frame) :=
  if stack.length < depthLimit then some (expect, frame :: stack) else none

/-- A value begins with the given token. -/
def begin (token : Token) (stack : List Frame) : Option (Expect × List Frame) :=
  match token with
  | .scalar v => complete v stack
  | .mark .openList => enter .firstItem (.items []) stack
  | .mark .openObject => enter .firstKey (.members []) stack
  | .mark _ => none

/-- A key comes, into the innermost object. -/
def beginEntry (token : Token) (stack : List Frame) : Option (Expect × List Frame) :=
  match token, stack with
  | .scalar (.text key), .members done :: rest => some (.colon, .entry done key :: rest)
  | _, _ => none

/-- The innermost list or object ends, or a comma announces another part of it. -/
def proceed (token : Token) (stack : List Frame) : Option (Expect × List Frame) :=
  match token, stack with
  | .mark .comma, .items done :: rest => some (.value, .items done :: rest)
  | .mark .comma, .members done :: rest => some (.key, .members done :: rest)
  | .mark .closeList, .items done :: rest => complete (.list done.reverse) rest
  | .mark .closeObject, .members done :: rest => complete (.object done.reverse) rest
  | _, _ => none

/-- **One token.** -/
def readStep : Expect × List Frame → Token → Option (Expect × List Frame)
  | (.value, stack), token => begin token stack
  | (.firstItem, stack), token =>
    match token, stack with
    | .mark .closeList, .items _ :: rest => complete (.list []) rest
    | _, _ => begin token stack
  | (.firstKey, stack), token =>
    match token, stack with
    | .mark .closeObject, .members _ :: rest => complete (.object []) rest
    | _, _ => beginEntry token stack
  | (.key, stack), token => beginEntry token stack
  | (.colon, stack), token =>
    match token with
    | .mark .colon => some (.value, stack)
    | _ => none
  | (.next, stack), token => proceed token stack
  | (.nothing _, _), _ => none

/-- The states after a list of tokens. -/
def readFrom (state : Expect × List Frame) : List Token → Option (Expect × List Frame)
  | [] => some state
  | token :: rest =>
    match readStep state token with
    | none => none
    | some state' => readFrom state' rest

/-- The document that a list of tokens is. -/
def ofTokens? (tokens : List Token) : Option Json :=
  match readFrom (.value, []) tokens with
  | some (.nothing v, _) => some v
  | _ => none

/-- **Reading a document**, all of it. -/
def read? (s : List Char) : Option Json := (tokens? s).bind ofTokens?

end GhciRelay.Json
