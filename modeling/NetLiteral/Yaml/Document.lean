import NetLiteral.Yaml.Basic
import NetLiteral.Yaml.Token.Sequence

/-!
# Documents

The value that the tokens of a text describe. A text holds at most one document; a text without one
stands for nothing, and so does a value that is missing where one is expected.
-/

namespace NetLiteral.Yaml

/-! ## Progress of reading -/

structure Anchors where
  /-- The number of the last anchor of each name. -/
  numbers : List (String × Nat)
  /-- The values with the numbers of their anchors, in the order in which they start. -/
  values : Array (Nat × Yaml)

/-- What is left to read, and the anchors so far. -/
structure Progress where
  tokens : List Token
  anchors : Anchors

abbrev Reading : Type → Type :=
  StateT Progress Option

namespace Reading

def peek : Reading (Option Token) :=
  return (← get).tokens.head?

def skip : Reading Unit :=
  modify fun p => { p with tokens := p.tokens.tail }

/-- Passes over the next token if it is the given one, and says whether it was. -/
def eat (token : Token) : Reading Bool := do
  if (← peek) = some token then
    skip
    return true
  else return false

def expect (token : Token) : Reading Unit := do
  unless ← eat token do failure

def isAt (tokens : List Token) : Reading Bool := do
  return (← peek).any tokens.contains

/-- The value of an alias, whose name must be that of an anchor before it. -/
def aliasOf (name : String) : Reading Yaml := do
  let some number := (← get).anchors.numbers.lookup name | failure
  return .alias number

/-- Gives a name to the value that starts here, and tells where that is kept. The number of an
anchor is the number of names that are known before it. -/
def register (name : String) : Reading Nat := do
  let ⟨numbers, values⟩ := (← get).anchors
  let number := numbers.length
  let numbers := (name, number) :: numbers.filter (·.1 != name)
  modify fun p => { p with anchors := ⟨numbers, values.push (number, nothing)⟩ }
  return values.size

def keep (position : Nat) (value : Yaml) : Reading Unit :=
  modify fun p => { p with
    anchors.values := p.anchors.values.modify position fun entry => (entry.1, value) }

/-- The anchor and the tag in front of a value, in any order. -/
def properties : Reading (Option String × Option String) := do
  match ← peek with
  | some (.anchor name) =>
    skip
    let some (.tag tag) ← peek | return (some name, none)
    skip
    return (some name, some tag.suffix)
  | some (.tag tag) =>
    skip
    let some (.anchor name) ← peek | return (none, some tag.suffix)
    skip
    return (some name, some tag.suffix)
  | _ => return (none, none)

/-! ## Values -/

inductive Position
  /-- Between brackets, where no block collection may start. -/
  | flow
  /-- In a block. -/
  | block
  /-- Beside a key in a block, where the items of a sequence need no indentation. -/
  | besideKey
  deriving DecidableEq, Repr

mutual

/-- The next value, if it takes at most so many steps. -/
def value : Nat → Position → Reading Yaml
  | 0, _ => failure
  | steps + 1, position => do
    if let some (.alias name) ← peek then
      skip
      aliasOf name
    else
      let (anchor, tag) ← properties
      let kept ← anchor.mapM register
      let content ← content steps position tag (anchor.isSome || tag.isSome)
      if let some kept := kept then keep kept content
      return content

/-- The next value after its properties. It may be missing if it has some. -/
def content : Nat → Position → Option String → Bool → Reading Yaml
  | 0, _, _, _ => failure
  | steps + 1, position, tag, hasProperties => do
    match ← peek with
    | some (.scalar text isPlain) =>
      skip
      return .scalar text isPlain (if tag = some "!" then none else tag)
    | some .openBracket =>
      skip
      return .seq (← flowItems steps true)
    | some .openBrace =>
      skip
      return .map (← flowEntries steps true)
    | token =>
      if token = some .dash ∧ position = .besideKey then return .seq (← looseItems steps)
      else if token = some .blockSeq ∧ position ≠ .flow then
        skip
        return .seq (← blockItems steps)
      else if token = some .blockMap ∧ position ≠ .flow then
        skip
        return .map (← blockEntries steps)
      else if hasProperties then return .scalar "" true tag
      else failure

/-- The next value, or nothing if one of the given tokens stands in its place. -/
def valueUnless : Nat → List Token → Position → Reading Yaml
  | 0, _, _ => failure
  | steps + 1, stops, position => do
    if ← isAt stops then return nothing else value steps position

/-- The items of a block sequence, with its end. -/
def blockItems : Nat → Reading (List Yaml)
  | 0 => failure
  | steps + 1 => do
    if ← eat .blockEnd then return []
    else
      expect .dash
      let item ← valueUnless steps [.dash, .blockEnd] .block
      return item :: (← blockItems steps)

/-- The items of a block sequence that is not indented. It ends with its last item. -/
def looseItems : Nat → Reading (List Yaml)
  | 0 => failure
  | steps + 1 => do
    if ← eat .dash then
      let item ← valueUnless steps [.dash, .key, .value, .blockEnd] .block
      return item :: (← looseItems steps)
    else return []

/-- The entries of a block mapping, with its end. -/
def blockEntries : Nat → Reading (List (Yaml × Yaml))
  | 0 => failure
  | steps + 1 => do
    if ← eat .blockEnd then return []
    else
      expect .key
      let stops := [.key, .value, .blockEnd]
      let key ← valueUnless steps stops .besideKey
      let value ← if ← eat .value then valueUnless steps stops .besideKey else pure nothing
      return (key, value) :: (← blockEntries steps)

/-- The items of a sequence in brackets, with its end. Commas stand between them, and one may stand
after the last. -/
def flowItems : Nat → Bool → Reading (List Yaml)
  | 0, _ => failure
  | steps + 1, isFirst => do
    if ← eat .closeBracket then return []
    else
      unless isFirst do expect .comma
      if ← eat .closeBracket then return []
      else
        let item ← if ← eat .key then pair steps else value steps .flow
        return item :: (← flowItems steps false)

/-- The mapping of one entry that stands in brackets without braces, after the mark of its key. If
the key is missing, the token after that mark is passed over. -/
def pair : Nat → Reading Yaml
  | 0 => failure
  | steps + 1 => do
    let stops := [.comma, .closeBracket]
    let isMissing ← isAt (.value :: stops)
    let key ← valueUnless steps (.value :: stops) .flow
    if isMissing then skip
    let value ← if ← eat .value then valueUnless steps stops .flow else pure nothing
    return .map [(key, value)]

/-- The entries of a mapping in braces, with its end. Commas stand between them, and one may stand
after the last. -/
def flowEntries : Nat → Bool → Reading (List (Yaml × Yaml))
  | 0, _ => failure
  | steps + 1, isFirst => do
    if ← eat .closeBrace then return []
    else
      unless isFirst do expect .comma
      if ← eat .closeBrace then return []
      else
        let stops := [.comma, .closeBrace]
        let entry ←
          if ← eat .key then
            let key ← valueUnless steps (.value :: stops) .flow
            let value ← if ← eat .value then valueUnless steps stops .flow else pure nothing
            pure (key, value)
          else pure (← value steps .flow, nothing)
        return entry :: (← flowEntries steps false)

end

end Reading

/-! ## Documents -/

namespace Document

/-- Whether a token belongs in front of a document. -/
def isDirective : Token → Bool
  | .version .. | .handle .. => true
  | _ => false

/-- The handles that directives define. There is at most one version, which must be known, and each
handle is defined once. -/
def handles? (directives : List Token) : Option (List (String × String)) :=
  let versions := directives.filterMap fun
    | .version major minor => some (major, minor)
    | _ => none
  let handles := directives.filterMap fun
    | .handle name meaning => some (name, meaning)
    | _ => none
  let isKnown := versions.all [(1, 1), (1, 2)].contains
  if versions.length ≤ 1 ∧ isKnown ∧ (handles.map (·.1)).Nodup then
    some (handles ++ Tag.standardHandles)
  else none

def resolve? (handles : List (String × String)) : Token → Option Token
  | .tag tag => (tag.resolve? handles).map fun suffix => .tag ⟨"", suffix⟩
  | token => some token

/-- The document that tokens describe. Directives need a mark where the document starts, and nothing
but marks of its end follows it. -/
def ofTokens? (tokens : List Token) : Option Document := do
  let directives := tokens.takeWhile isDirective
  let tokens := tokens.dropWhile isDirective
  let isMarked := tokens.head? = some .documentStart
  let tokens ← (if isMarked then tokens.tail else tokens).mapM (resolve? (← handles? directives))
  if tokens.all (· = .documentEnd) ∧ (isMarked ∨ (directives = [] ∧ tokens = [])) then
    return ⟨nothing, []⟩
  else if isMarked ∨ directives = [] then
    let (root, rest) ← (Reading.value (4 * (tokens.length + 1)) .block).run ⟨tokens, ⟨[], #[]⟩⟩
    if rest.tokens.all (· = .documentEnd) then return ⟨root, rest.anchors.values.toList⟩ else none
  else none

def ofText? (text : String) : Option Document := do
  ofTokens? (← tokens? text)

end Document

end NetLiteral.Yaml
