import GhciRelay.Text.Quoted
import GhciRelay.Text.Uppercase

/-!
# Setting up the log

The log is set up once: the first call decides from which level on entries are written, and later
calls change nothing, not even if the first one failed because it named no level. Entries of the
libraries that carry the connection are written only from warnings on.
-/

namespace GhciRelay.Log

open GhciRelay.Text

/-- **How far the log has been set up**: whether a call was made, and whether it got through. -/
structure Setup where
  called : Bool
  quieted : Bool
deriving DecidableEq

namespace Setup

/-- Nothing was set up yet. -/
def fresh : Setup := ⟨false, false⟩

/-- The layout of a line of the log. -/
def lineLayout : String := "%(asctime)s - %(levelname)s - [%(name)s] - %(message)s"

/-- The layout of the time in a line of the log. -/
def timeLayout : String := "%Y-%m-%dT%H:%M:%S"

/-- The level that is set up if none is named. -/
def defaultLevel : String := "INFO"

/-- The rank of each level that can be named. -/
def ranks : List (String × Nat) := [
  ("CRITICAL", 50), ("FATAL", 50), ("ERROR", 40), ("WARNING", 30), ("WARN", 30), ("INFO", 20),
  ("DEBUG", 10), ("NOTSET", 0)]

/-- The rank of warnings. -/
def warningRank : Nat := 30

/-- The sources of which only warnings are written. -/
def quietSources : List String :=
  ["pygls", "pygls.protocol", "pygls.server", "pygls.feature_manager", "asyncio"]

/-- A name that no level has. -/
structure UnknownLevel where
  name : String
deriving DecidableEq

/-- The words in which a level is refused. -/
def UnknownLevel.message (e : UnknownLevel) : String :=
  let quote := apostrophe.toString
  "module " ++ quote ++ "logging" ++ quote ++ " has no attribute " ++ quote ++ e.name ++ quote

/-- **Setting up the log** for a level, which may be written in small letters: the rank from which on
entries are written, if this call decides it. -/
def call (s : Setup) (level : String) : Setup × Except UnknownLevel (Option Nat) :=
  if s.called then (s, .ok none)
  else
    match ranks.lookup (upper level) with
    | some rank => (⟨true, true⟩, .ok (some rank))
    | none => ({ s with called := true }, .error ⟨upper level⟩)

/-- The rank that a source has of its own; zero if it has none. -/
def rankOf (s : Setup) (source : String) : Nat :=
  if s.quieted && quietSources.contains source then warningRank else 0

end Setup

end GhciRelay.Log
