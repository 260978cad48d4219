/-!
# Log entries

What the program notes about itself, apart from what it tells the editor: an entry has a level, the
part of the program that it comes from, and a message that begins with the name of an event.
-/

namespace GhciRelay.Log

/-- How important an entry is. -/
inductive Level where
  | debug
  | info
  | warning
  | error
  | critical
deriving DecidableEq

/-- The name of a level. -/
def Level.name : Level → String
  | .debug => "DEBUG"
  | .info => "INFO"
  | .warning => "WARNING"
  | .error => "ERROR"
  | .critical => "CRITICAL"

/-- Every level. -/
def Level.all : List Level := [.debug, .info, .warning, .error, .critical]

/-- The level with a given name. -/
def Level.ofName? (name : String) : Option Level := Level.all.find? (·.name = name)

/-- **An entry of the log.** -/
structure Entry where
  level : Level
  origin : String
  message : String
deriving DecidableEq

/-- The entry as one line. -/
def Entry.line (e : Entry) : String := e.level.name ++ " " ++ e.origin ++ " " ++ e.message

end GhciRelay.Log
