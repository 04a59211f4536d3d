import NetLiteral.CommandLine.Invocation
import NetLiteral.Log.Filter
import NetLiteral.Log.Line
import NetLiteral.Report.Hosts
import NetLiteral.Report.Lookup
import NetLiteral.Report.Parse
import NetLiteral.Settings.Load

/-!
# The program

A run of the program, from its arguments, the environment and the settings file to an exit code and
everything that is put out. The log level is settled first, then the settings, then the command
runs; flags count before the environment and the environment before the file.
-/

namespace NetLiteral

open CommandLine

structure Run where
  exitCode : UInt8
  emissions : List Emission
  /-- How talkative the log is. -/
  verbosity : Nat

namespace Program

def serviceName : String :=
  "netaddr"

def versionLine : String :=
  "netaddr 0.1.0\n"

/-- The text that tells how to call the program. -/
def usage : String :=
  "Usage: netaddr [--config PATH] [--log-level LEVEL] [--json] COMMAND\n\n" ++
    "Commands:\n" ++
    "  parse [--kind KIND] INPUT...     write literals in canonical form\n" ++
    "  hosts [--limit N] ROUTE          list the host addresses of a route\n" ++
    "  lookup ADDRESS --route ROUTE...  find the most specific route for an address\n"

def defaultLogLevel : String :=
  "warn"

/-- The log level that the arguments or the environment ask for. -/
def logLevel (options : GlobalOptions) (env : Environment) : String :=
  (options.logLevel <|> env.logLevel).getD defaultLogLevel

/-- The settings that the file, the environment and the flags give together. -/
def settings (options : GlobalOptions) (env : Environment) (file : SettingsFile) :
    Logged Settings := do
  let s ← match options.configPath with
    | some path => Settings.load path file env
    | none => Settings.ofEnvironment env
  let s := if options.json then { s with output := .json } else s
  Logged.emit ⟨.debug, none, "Effective configuration: " ++ s.describe⟩
  return s

def runCommand (s : Settings) : Command → Transcript (Except CommandError Unit)
  | .parse kind inputs => ParseReport.run s.output kind inputs
  | .hosts route limit => HostsReport.run s.output route (limit.getD s.maxHosts)
  | .lookup address routes => LookupReport.run s.output address routes

def runInvocation (i : Invocation) (env : Environment) (file : SettingsFile) :
    Transcript (Except CommandError Unit) := do
  let s ← Transcript.ofLogged (settings i.options env file)
  runCommand s i.command

/-- The end of a run: an error is reported and gives the exit code one. -/
def finish (verbosity : Nat) (t : Transcript (Except CommandError Unit)) : Run :=
  match t.value with
  | .ok () => ⟨0, t.emissions, verbosity⟩
  | .error e => ⟨1, t.emissions ++ [.err e.report], verbosity⟩

def interrupted : Interruption → Run
  | .version => ⟨0, [.out versionLine], 0⟩
  | .help => ⟨0, [.out usage], 0⟩
  | .usage e => ⟨2, [.err ("error: " ++ e.message ++ "\n\n" ++ usage)], 0⟩

/-- The path of the settings file that the arguments ask for. -/
def configPath? (args : List String) : Option String :=
  match Invocation.read args with
  | .ok i => i.options.configPath
  | .error _ => none

/-- Runs the program; `file` is what stands at the path of the settings file. -/
def run (args : List String) (env : Environment) (file : SettingsFile) : Run :=
  match Invocation.read args with
  | .error why => interrupted why
  | .ok i =>
    match Log.verbosity (logLevel i.options env) with
    | .error problem => finish 0 (Transcript.silent (.error (.invalidLogLevel problem)))
    | .ok verbosity => finish verbosity (runInvocation i env file)

end Program

namespace Run

def stdout (r : Run) : String :=
  Emission.stdout r.emissions

/-- What the program puts out as messages, each line of the log after `stamp`. -/
def stderr (r : Run) (style : Log.LineStyle) (stamp : String) : String :=
  Emission.stderr
    (fun record => if record.isShown r.verbosity then style.line stamp record else "") r.emissions

end Run

end NetLiteral
