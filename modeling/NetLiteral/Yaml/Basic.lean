/-!
# YAML values

A value is a scalar, a sequence, a mapping or an alias of a value that stands elsewhere in the
document. A scalar keeps its text, its tag and whether it was written without quotes, because only a
plain scalar may stand for nothing.
-/

namespace NetLiteral

inductive Yaml
  | scalar (text : String) (isPlain : Bool) (tag : Option String)
  | seq (items : List Yaml)
  | map (entries : List (Yaml × Yaml))
  /-- The value whose anchor has that number. -/
  | alias (anchor : Nat)

namespace Yaml

def nothing : Yaml :=
  scalar "" true none

def nullWords : List String :=
  ["~", "null", "Null", "NULL"]

def nullTag : String :=
  "tag:yaml.org,2002:null"

/-- Whether a value stands for nothing. A plain scalar with the tag of nothing has to be a word for
it, and one with another tag is never nothing. -/
def isNull? : Yaml → Option Bool
  | scalar text true none => some (text.isEmpty || nullWords.contains text)
  | scalar text true (some tag) =>
    if tag = nullTag then (if nullWords.contains text then some true else none) else some false
  | _ => some false

/-- A document: its value and the values that have an anchor. -/
structure Document where
  root : Yaml
  /-- The values with the numbers of their anchors, in the order in which they start. -/
  anchored : List (Nat × Yaml)

/-- The value that an alias stands for; of two values whose anchors have one number it is the later
one. -/
def Document.value (d : Document) : Yaml → Yaml
  | .alias anchor =>
    match d.anchored.reverse.find? fun entry => entry.1 == anchor with
    | some (_, value) => value
    | none => nothing
  | value => value

end Yaml

end NetLiteral
