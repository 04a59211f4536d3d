import NetLiteral.Settings.Entries
import NetLiteral.Yaml.Document

/-!
# Settings files

A settings file is shared by several services. The entries of this one are the mapping `config` of
the mapping `netaddr` of the mapping `services`; what else the file says is ignored.
-/

namespace NetLiteral

inductive FileProblem
  | notYaml
  | notMapping (what : String)
  | notScalar (what : String)
  | notNull (what : String)
  | repeated (key : String)
  deriving DecidableEq, Repr

def FileProblem.message : FileProblem → String
  | notYaml => "not a document that can be read"
  | notMapping what => what ++ " is not a mapping"
  | notScalar what => what ++ " is not a text"
  | notNull what => what ++ " stands for something, against its tag"
  | repeated key => "duplicate entry for " ++ key

/-- What is found where the settings file should be. -/
inductive SettingsFile
  | missing
  | broken (problem : FileProblem)
  /-- The entries for this service. -/
  | found (entries : Entries)
  deriving DecidableEq, Repr

namespace SettingsFile

open Yaml (Document)

/-! ## Reading -/

def scalar (d : Document) (what : String) (y : Yaml) : Except FileProblem String :=
  match d.value y with
  | .scalar text _ _ => .ok text
  | _ => .error (.notScalar what)

/-- The entries of a mapping, whose keys are scalars. A mapping that is not written is empty. -/
def mapping (d : Document) (what : String) (y : Yaml) : Except FileProblem (List (String × Yaml)) :=
  match d.value y with
  | .map entries =>
    entries.mapM fun (key, value) => return (← scalar d ("a key of " ++ what) key, value)
  | .scalar "" true _ => .ok []
  | _ => .error (.notMapping what)

/-- The value of the only entry for a key, if there is one that stands for something. -/
def field (d : Document) (key : String) (entries : List (String × Yaml)) :
    Except FileProblem (Option Yaml) :=
  match entries.filter fun e => e.1 == key with
  | [] => .ok none
  | [(_, value)] =>
    match (d.value value).isNull? with
    | some isNull => .ok (if isNull then none else some value)
    | none => .error (.notNull key)
  | _ => .error (.repeated key)

/-- The entries of a mapping in the mapping at `path`; a mapping that is missing is empty. -/
def entriesAt (d : Document) :
    List String → String → Yaml → Except FileProblem (List (String × Yaml))
  | [], what, value => mapping d what value
  | key :: path, what, value => do
    match ← field d key (← mapping d what value) with
    | none => return []
    | some inner => entriesAt d path key inner

/-- Where the settings of this service stand in a file. -/
def path : List String :=
  ["services", "netaddr", "config"]

/-- The entries for this service in a document. -/
def ofDocument (d : Document) : Except FileProblem Entries := do
  let entries ← entriesAt d path "the document" d.root
  let texts ← entries.mapM fun (key, value) => return (key, ← scalar d key value)
  return .ofList texts

def ofString (text : String) : SettingsFile :=
  match Document.ofText? text with
  | none => broken .notYaml
  | some d =>
    match ofDocument d with
    | .ok entries => found entries
    | .error problem => broken problem

end SettingsFile

end NetLiteral
