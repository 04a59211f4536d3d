import NetLiteral.Settings.Basic
import NetLiteral.Settings.File
import NetLiteral.Text.Quoted

/-!
# Loading settings

The environment counts more than the settings file, and a setting that neither of them gives keeps
its standard value. Each setting is decided on its own.
-/

namespace NetLiteral

namespace Settings

def outputKey : String :=
  "services.netaddr.output"

def maxHostsKey : String :=
  "services.netaddr.max_hosts"

/-- The record of an entry that cannot be used. -/
def ignoring (key : String) (why : String) : Log.Record :=
  ⟨.warn, none, "Ignoring " ++ key ++ ": " ++ why⟩

def applyEntry (s : Settings) (entry : String × String) : Logged Settings :=
  let (key, value) := entry
  if key = outputKey then
    match OutputFormat.ofString value with
    | .ok output => .quiet { s with output }
    | .error e => ⟨s, [ignoring key e.message]⟩
  else if key = maxHostsKey then
    match Numeral.word? value with
    | some maxHosts => .quiet { s with maxHosts }
    | none => ⟨s, [ignoring key ("not a number: " ++ value)]⟩
  else .quiet s

/-- Applies the settings file found at `path`. -/
def applyFile (path : String) (s : Settings) : SettingsFile → Logged Settings
  | .missing =>
    let message := "Config file " ++ Text.Quoted.encode path ++ " not found, using defaults"
    ⟨s, [⟨.warn, none, message⟩]⟩
  | .broken problem =>
    let message := "Failed to parse config file " ++ Text.Quoted.encode path ++
      ", using defaults: " ++ problem.message
    ⟨s, [⟨.warn, none, message⟩]⟩
  | .found entries => do
    let s ← entries.toList.foldlM applyEntry s
    Logged.emit ⟨.info, none, "Loaded configuration from " ++ Text.Quoted.encode path⟩
    return s

/-- The settings that a file and the environment give together; the environment counts. -/
def load (path : String) (file : SettingsFile) (env : Environment) : Logged Settings := do
  withEnvironment env (← applyFile path standard file)

end Settings

end NetLiteral
