import GhciRelay.CommandLine.Word
import GhciRelay.Text.Integer

/-!
# Options

The words of a command line are taken from left to right. Every switch acts when its turn comes: the
request for help ends everything at once, and so does the first error. What nobody takes is refused at
the end.
-/

namespace GhciRelay.CommandLine

open GhciRelay.Text

/-- **The options** of a run. The host or the port is nothing if a double hyphen was given for it. -/
structure Options where
  version : Bool := false
  stdio : Bool := false
  tcp : Bool := false
  host : Option String := some "127.0.0.1"
  port : Option Int := some 2087
  logLevel : Option String := none
deriving DecidableEq

/-- Why reading the options ended early. -/
inductive Stop where
  | help
  | refused (e : UsageError)
deriving DecidableEq

/-- The value that a switch is given; the double hyphen is none. -/
def valueOf (text : String) : Option String := if text = dividerText then none else some text

/-- A switch acts on a value. -/
def Options.give (o : Options) (s : Switch) (text : String) : Except Stop Options :=
  match s with
  | .host => .ok { o with host := valueOf text }
  | .logLevel => .ok { o with logLevel := valueOf text }
  | .port =>
    match valueOf text with
    | none => .ok { o with port := none }
    | some t =>
      match integer? t with
      | some n => .ok { o with port := some n }
      | none => .error (.refused (.notInteger s t))
  | _ => .error (.refused (.unexpectedValue s text))

/-- A switch acts without a value. -/
def Options.set (o : Options) (s : Switch) : Except Stop Options :=
  match s with
  | .help => .error .help
  | .version => .ok { o with version := true }
  | .stdio => .ok { o with stdio := true }
  | .tcp => .ok { o with tcp := true }
  | _ => .error (.refused (.expectedValue s))

/-- Letters that follow a short switch: each has to be a short switch itself, and the only one is the
request for help. -/
def letters (s : Switch) : List Char → Stop
  | [] => .help
  | 'h' :: rest => letters s rest
  | cs => .refused (.unexpectedValue s (String.ofList cs))

/-- A switch acts on a value of its own. -/
def Options.giveOwn (o : Options) (s : Switch) (short : Bool) (own : String) :
    Except Stop Options :=
  if short && own != "" then .error (letters s own.toList) else o.give s own

/-- The options after the words, which are taken in order; `left` is what nobody took, the last one
first. -/
def Options.take (o : Options) (left : List String) : List Word → Except Stop Options
  | [] =>
    if left.isEmpty then .ok o else .error (.refused (.unrecognized left.reverse))
  | .value text :: rest => o.take (text :: left) rest
  | .divider :: rest => o.take (dividerText :: left) rest
  | .unknown text :: rest => o.take (text :: left) rest
  | .switch s short (some own) :: rest =>
    match o.giveOwn s short own with
    | .error e => .error e
    | .ok o' => o'.take left rest
  | .switch s _ none :: .value text :: rest =>
    if s.takesValue then
      match o.give s text with
      | .error e => .error e
      | .ok o' => o'.take left rest
    else
      match o.set s with
      | .error e => .error e
      | .ok o' => o'.take (text :: left) rest
  | .switch s _ none :: rest =>
    match o.set s with
    | .error e => .error e
    | .ok o' => o'.take left rest

/-- **The options of a command line.** -/
def Options.read (arguments : List String) : Except Stop Options :=
  match readWords arguments with
  | .error e => .error (.refused e)
  | .ok words => ({} : Options).take [] words

end GhciRelay.CommandLine
