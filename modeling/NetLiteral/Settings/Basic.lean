import NetLiteral.Log.Record
import NetLiteral.Numeral
import NetLiteral.Text.Lowercase

/-!
# Settings

How results are printed and how many hosts are listed. Either setting is given as a text by a file
or by the environment; a text that is no value of the setting never changes it.
-/

namespace NetLiteral

inductive OutputFormat
  /-- One text a line. -/
  | text
  | json
  deriving DecidableEq, Repr

/-- A text that names no output format, in lowercase. -/
structure UnknownFormat where
  text : String
  deriving DecidableEq, Repr

def UnknownFormat.message (e : UnknownFormat) : String :=
  "Invalid output format: " ++ e.text ++ ". Use 'text' or 'json'"

namespace OutputFormat

def name : OutputFormat → String
  | text => "text"
  | json => "json"

/-- The name of a format as it is shown in records. -/
def describe : OutputFormat → String
  | text => "Text"
  | json => "Json"

/-- The format that a text names, in any case. -/
def ofString (s : String) : Except UnknownFormat OutputFormat :=
  let word := Text.lower s
  if word = text.name then .ok text
  else if word = json.name then .ok json
  else .error ⟨word⟩

end OutputFormat

structure Settings where
  output : OutputFormat
  /-- How many hosts are listed at most. -/
  maxHosts : Nat
  deriving DecidableEq, Repr

/-- What the environment says about settings and about the log. -/
structure Environment where
  output : Option String
  maxHosts : Option String
  logLevel : Option String
  deriving DecidableEq, Repr

namespace Settings

def standard : Settings :=
  ⟨.text, 1024⟩

/-- The settings as they are shown in records. -/
def describe (s : Settings) : String :=
  "NetaddrConfig \x7b output: " ++ s.output.describe ++ ", max_hosts: " ++ toString s.maxHosts ++
    " \x7d"

/-! ## Environment -/

/-- Takes the output format from the environment. -/
def withOutput (text : Option String) (s : Settings) : Logged Settings :=
  match text.map OutputFormat.ofString with
  | some (.ok output) =>
    let message := "Output format overridden by environment: " ++ output.describe
    ⟨{ s with output }, [⟨.info, none, message⟩]⟩
  | _ => .quiet s

/-- Takes the host limit from the environment. -/
def withMaxHosts (text : Option String) (s : Settings) : Logged Settings :=
  match text.bind Numeral.word? with
  | some maxHosts =>
    ⟨{ s with maxHosts }, [⟨.info, none, s!"Host limit overridden by environment: {maxHosts}"⟩]⟩
  | none => .quiet s

def withEnvironment (env : Environment) (s : Settings) : Logged Settings := do
  withMaxHosts env.maxHosts (← withOutput env.output s)

def ofEnvironment (env : Environment) : Logged Settings :=
  standard.withEnvironment env

end Settings

end NetLiteral
