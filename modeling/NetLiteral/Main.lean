import NetLiteral.Program
import Std.Time

/-!
# The command line

Reads the arguments, the environment and the settings file, runs the program, and prints what it
puts out.
-/

namespace NetLiteral.Main

def readEnvironment : IO Environment := do
  return ⟨← IO.getEnv "NETADDR_OUTPUT", ← IO.getEnv "NETADDR_MAX_HOSTS",
    ← IO.getEnv "NETADDR_LOG_LEVEL"⟩

/-- The settings file at a path; one that cannot be read is missing. -/
def readSettingsFile (path : String) : IO SettingsFile := do
  try return .ofString (← IO.FS.readFile path)
  catch _ => return .missing

/-- The time of day before the columns of a log line. -/
def stamp : IO String := do
  let now ← Std.Time.PlainDateTime.now
  return "[" ++ now.format "uuuu-MM-dd HH:mm:ss.SSS" ++ "] "

def put (style : Log.LineStyle) (verbosity : Nat) : Emission → IO Unit
  | .out text => IO.print text
  | .err text => IO.eprint text
  | .record r => do
    if r.isShown verbosity then IO.eprint (style.line (← stamp) r)

end NetLiteral.Main

open NetLiteral in
def main (args : List String) : IO UInt32 := do
  let env ← Main.readEnvironment
  let file ← match Program.configPath? args with
    | some path => Main.readSettingsFile path
    | none => pure .missing
  let run := Program.run args env file
  let onTerminal ← (← IO.getStderr).isTty
  let style := Log.LineStyle.of Program.serviceName onTerminal (← IO.getEnv "TERM")
  for e in run.emissions do
    Main.put style run.verbosity e
  return run.exitCode.toUInt32
