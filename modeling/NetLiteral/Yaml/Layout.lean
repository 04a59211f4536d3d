import NetLiteral.Yaml.Token

/-!
# Layout

Indentation says where block collections start and end. A layout keeps the columns of the open ones
and writes a token wherever one starts or ends. That a value is a key shows only at the colon after
it, so the place in front of a value that may be a key is remembered, and the tokens that say so are
put there later.
-/

namespace NetLiteral.Yaml

/-- A value that is a key if a colon follows it. -/
structure KeyCandidate where
  /-- Whether nothing but a key may stand there. -/
  isRequired : Bool
  /-- How many tokens stand before it. -/
  position : Nat
  place : Place
  deriving DecidableEq, Repr

namespace KeyCandidate

/-- Whether a colon at a place comes too late: a key stands on the line of its colon and is at most
1024 characters long. -/
def isStale (place : Place) (k : KeyCandidate) : Bool :=
  k.place.line < place.line || k.place.index + 1024 < place.index

/-- What is left of a candidate at a place. A required key that is too late is a fault. -/
def keep? (place : Place) : Option KeyCandidate → Option (Option KeyCandidate)
  | some k => if !k.isStale place then some (some k) else if k.isRequired then none else some none
  | none => some none

end KeyCandidate

/-- The tokens so far, and what is open after them. -/
structure Layout where
  tokens : Array Token
  /-- The columns of the open block collections, the innermost first. -/
  columns : List Nat
  /-- The candidate between the innermost brackets. -/
  candidate : Option KeyCandidate
  /-- The candidates around the open brackets, the innermost first. -/
  outer : List (Option KeyCandidate)
  /-- Whether a key may start here. -/
  keyAllowed : Bool
  deriving DecidableEq, Repr

namespace Layout

def start : Layout :=
  ⟨#[], [], none, [], true⟩

/-- Whether brackets are open. Between brackets indentation has no meaning. -/
def inFlow (l : Layout) : Bool :=
  !l.outer.isEmpty

/-- The least column of what belongs to the innermost block collection. -/
def innerColumn (l : Layout) : Nat :=
  (l.columns.head?.map (· + 1)).getD 0

def push (token : Token) (l : Layout) : Layout :=
  { l with tokens := l.tokens.push token }

/-! ## Block collections -/

/-- Starts a block collection at a column, before the token at a position, unless it is already
open. -/
def openBlock (token : Token) (position column : Nat) (l : Layout) : Layout :=
  if l.inFlow || column < l.innerColumn then l
  else
    { l with
      tokens := l.tokens.insertIdxIfInBounds position token
      columns := column :: l.columns }

/-- Ends the innermost block collections as long as a test on their columns holds. -/
def closeWhile (p : Nat → Bool) (l : Layout) : Layout :=
  if l.inFlow then l
  else
    { l with
      tokens := l.tokens ++ (l.columns.takeWhile p).map fun _ => Token.blockEnd
      columns := l.columns.dropWhile p }

/-- Ends the block collections that start behind a column. -/
def closeBehind (column : Nat) (l : Layout) : Layout :=
  l.closeWhile (column < ·)

def closeAll (l : Layout) : Layout :=
  l.closeWhile fun _ => true

/-! ## Keys -/

/-- Gives up the candidate for a key, which must not be required. -/
def dropCandidate? (l : Layout) : Option Layout :=
  if l.candidate.any (·.isRequired) then none else some { l with candidate := none }

/-- Remembers that a key may start at a place. -/
def remember? (place : Place) (l : Layout) : Option Layout :=
  if l.keyAllowed then do
    let l ← l.dropCandidate?
    let isRequired := !l.inFlow && l.columns.head? == some place.column
    return { l with candidate := some ⟨isRequired, l.tokens.size, place⟩ }
  else some l

/-- Gives up the candidates whose colon would come too late at a place. -/
def forgetStale? (place : Place) (l : Layout) : Option Layout :=
  return { l with
    candidate := ← KeyCandidate.keep? place l.candidate
    outer := ← l.outer.mapM (KeyCandidate.keep? place) }

/-! ## Tokens -/

/-- Adds an indicator that starts an entry of a block collection at a place, or of one in brackets.
-/
def entry? (block token : Token) (place : Place) (l : Layout) : Option Layout :=
  if l.inFlow || l.keyAllowed then do
    let l ← (l.openBlock block l.tokens.size place.column).dropCandidate?
    return l.push token
  else none

/-- Adds the indicator of an item of a block sequence. -/
def dash? (place : Place) (l : Layout) : Option Layout :=
  return { ← l.entry? .blockSeq .dash place with keyAllowed := true }

def key? (place : Place) (l : Layout) : Option Layout :=
  return { ← l.entry? .blockMap .key place with keyAllowed := !l.inFlow }

/-- Adds the colon after a key. If there is a candidate, it is the key. -/
def value? (place : Place) (l : Layout) : Option Layout :=
  match l.candidate with
  | some k =>
    let l := { l with tokens := l.tokens.insertIdxIfInBounds k.position .key, keyAllowed := false }
    let l := l.openBlock .blockMap k.position k.place.column
    some ({ l with candidate := none }.push .value)
  | none => return { ← l.entry? .blockMap .value place with keyAllowed := !l.inFlow }

/-- Adds the start of a collection in brackets. -/
def openFlow? (token : Token) (place : Place) (l : Layout) : Option Layout := do
  let l ← l.remember? place
  return { l.push token with
    candidate := none
    outer := l.candidate :: l.outer
    keyAllowed := true }

def closeFlow? (token : Token) (l : Layout) : Option Layout := do
  let l ← l.dropCandidate?
  return { l.push token with
    candidate := l.outer.head?.getD none
    outer := l.outer.tail
    keyAllowed := false }

def comma? (l : Layout) : Option Layout :=
  return { (← l.dropCandidate?).push .comma with keyAllowed := true }

/-- Adds what may be a key or stand in front of one. -/
def atom? (token : Token) (place : Place) (l : Layout) : Option Layout :=
  return { (← l.remember? place).push token with keyAllowed := false }

/-- Adds a block scalar, which is never a key. -/
def blockScalar? (text : String) (l : Layout) : Option Layout :=
  return { (← l.dropCandidate?).push (.scalar text false) with keyAllowed := true }

/-- Adds what stands outside of the collections of a document. -/
def outside? (token : Token) (l : Layout) : Option Layout :=
  return { (← l.closeAll.dropCandidate?).push token with keyAllowed := false }

def finish? (l : Layout) : Option (List Token) :=
  return (← l.closeAll.dropCandidate?).tokens.toList

end Layout

end NetLiteral.Yaml
