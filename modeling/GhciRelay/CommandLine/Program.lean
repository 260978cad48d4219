import GhciRelay.CommandLine.Options
import GhciRelay.Config.Settings

/-!
# The program

What a run of the program does before it serves: it reads its options and settings, sets up the log,
makes a server, and serves it over its standard streams or over TCP.
-/

namespace GhciRelay.CommandLine

/-- What a run calls for, in order. -/
inductive Call where
  | setUpLog (level : Log.Level)
  | createServer (settings : Settings)
  | serveStdio
  | serveTcp (host : Option String) (port : Option Int)
deriving DecidableEq

/-- **How a run ends**: it is refused or shows its help, it prints its version, its settings are of no
use, or it serves. -/
inductive Run where
  | exited (code : Nat) (stdout stderr : String)
  | printed (stdout : String)
  | misconfigured (problems : List Problem)
  | served (calls : List Call) (log : List Log.Entry)

/-- How the program is used. -/
def usage : String :=
  "usage: ghci-bridge [-h] [--version] [--stdio] [--tcp] [--host HOST]\n"
    ++ "                   [--port PORT] [--log-level LOG_LEVEL]\n"

/-- The help. -/
def helpText : String :=
  usage ++ "\n"
    ++ "Language server that runs GHCi and republishes its diagnostics to the editor.\n"
    ++ "\n"
    ++ "options:\n"
    ++ "  -h, --help            show this help message and exit\n"
    ++ "  --version             Print version and exit\n"
    ++ "  --stdio               Serve over stdin/stdout (default)\n"
    ++ "  --tcp                 Serve over TCP instead of stdio\n"
    ++ "  --host HOST           Bind address for TCP transport (default: 127.0.0.1)\n"
    ++ "  --port PORT           Port for TCP transport (default: 2087)\n"
    ++ "  --log-level LOG_LEVEL\n"
    ++ "                        Log level for stderr logging (default: from settings)\n"

/-- What is printed about a command line that is refused. -/
def refusal (e : UsageError) : String :=
  usage ++ Prompt.programName ++ ": error: " ++ e.message ++ "\n"

/-- The version as it is printed. -/
def versionText : String := Prompt.programName ++ " " ++ Prompt.programVersion ++ "\n"

/-- The settings that a command line gives; an empty level is none. -/
def Options.given (o : Options) : List (String × Json) :=
  match o.logLevel with
  | none => []
  | some level => if level = "" then [] else [(Settings.Field.level.name, .text level)]

/-- The entry that the log gets when the server starts. -/
def startingNote : Log.Entry :=
  ⟨.info, "cli",
    "event=server_starting name=" ++ Prompt.programName ++ " version=" ++ Prompt.programVersion⟩

/-- The calls that serve. -/
def Options.serve (o : Options) (settings : Settings) : Run :=
  .served
    [.setUpLog settings.level, .createServer settings,
      if o.tcp then .serveTcp o.host o.port else .serveStdio]
    [startingNote]

/-- **A run of the program** with arguments, an environment and perhaps an environment file. -/
def run (arguments : List String) (environment : List (String × String)) (file : Option String) :
    Run :=
  match Options.read arguments with
  | .error .help => .exited 0 helpText ""
  | .error (.refused e) => .exited 2 "" (refusal e)
  | .ok o =>
    if o.version then .printed versionText
    else
      match Settings.load ⟨o.given, environment, file⟩ with
      | .error problems => .misconfigured problems
      | .ok settings => o.serve settings

end GhciRelay.CommandLine
