import NetLiteral.CommandError
import NetLiteral.Json
import NetLiteral.Kind
import NetLiteral.Settings.Basic
import NetLiteral.Text.Quoted
import NetLiteral.Transcript

/-!
# Canonical texts of inputs

Each input has a report: its canonical text, or the failure that kept it from having one. Both ways
of printing show the same texts, and the command fails if any input does.
-/

namespace NetLiteral

structure ParseReport where
  input : String
  kind : Kind
  outcome : Except Failure String

namespace ParseReport

/-- The record of an input that has no canonical text. -/
def rejected (input : String) (e : Failure) : Log.Record :=
  ⟨.warn, none, "Rejected " ++ Text.Quoted.encode input ++ ": " ++ e.message⟩

def of (kind : Kind) (input : String) : Logged ParseReport := do
  let outcome ← kind.canonical input
  match outcome with
  | .ok _ => return ⟨input, kind, outcome⟩
  | .error e =>
    Logged.emit (rejected input e)
    return ⟨input, kind, outcome⟩

def isFailed (r : ParseReport) : Bool :=
  match r.outcome with
  | .ok _ => false
  | .error _ => true

def toJson (r : ParseReport) : Json :=
  let outcome := match r.outcome with
    | .ok text => ("canonical", .str text)
    | .error e => ("error", .str e.message)
  .obj [("input", .str r.input), ("kind", .str r.kind.name), outcome]

/-- A report as one line: a result or a message. -/
def toLine (r : ParseReport) : Emission :=
  match r.outcome with
  | .ok text => .out (text ++ "\n")
  | .error e => .err (r.input ++ ": " ++ e.message ++ "\n")

/-- Prints reports; `write` writes their JSON form. -/
def printWith (write : Json → String) (output : OutputFormat) (reports : List ParseReport) :
    Transcript Unit :=
  match output with
  | .text => .emitAll (reports.map toLine)
  | .json => .emit (.out (write (.arr (reports.map toJson)) ++ "\n"))

def runWith (write : Json → String) (output : OutputFormat) (kind : Kind)
    (inputs : List String) : Transcript (Except CommandError Unit) := do
  let reports ← Transcript.ofLogged (Logged.collect (inputs.map (of kind)))
  printWith write output reports
  let failed := reports.countP isFailed
  return if 0 < failed then .error (.inputsRejected failed reports.length) else .ok ()

def run : OutputFormat → Kind → List String → Transcript (Except CommandError Unit) :=
  runWith Json.pretty

end ParseReport

end NetLiteral
