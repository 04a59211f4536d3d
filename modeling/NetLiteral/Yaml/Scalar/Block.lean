import NetLiteral.Yaml.Source

/-!
# Block scalars

A block scalar takes the lines below its header that are indented enough. A literal one keeps its
line ends; a folded one turns the line end between two lines of text into a space. The header says
which of the line ends after the last line stay, and may say how far the lines are indented;
otherwise the first line with text shows it.
-/

namespace NetLiteral.Yaml.Block

/-- Which line ends after the last line of text belong to a block scalar. -/
inductive Chomping
  /-- None. -/
  | strip
  /-- The one that ends the line. -/
  | clip
  /-- All. -/
  | keep
  deriving DecidableEq, Repr

structure Header where
  isFolded : Bool
  chomping : Chomping
  /-- How far the lines are indented against the collection around them. -/
  width : Option Nat
  deriving DecidableEq, Repr

/-! ## Header -/

def Chomping.ofSign? : Char → Option Chomping
  | '-' => some .strip
  | '+' => some .keep
  | _ => none

def width? (c : Char) : Option Nat :=
  if '1' ≤ c ∧ c ≤ '9' then some (c.toNat - '0'.toNat) else none

/-- The header with a sign, a digit, or both in any order. -/
def Header.ofIndicators? (isFolded : Bool) : List Char → Option Header
  | [] => some ⟨isFolded, .clip, none⟩
  | [c] =>
    match Chomping.ofSign? c, width? c with
    | some chomping, _ => some ⟨isFolded, chomping, none⟩
    | none, some width => some ⟨isFolded, .clip, some width⟩
    | none, none => none
  | [c, d] =>
    match Chomping.ofSign? c, width? d, Chomping.ofSign? d, width? c with
    | some chomping, some width, _, _ => some ⟨isFolded, chomping, some width⟩
    | _, _, some chomping, some width => some ⟨isFolded, chomping, some width⟩
    | _, _, _, _ => none
  | _ => none

/-- The header at the start of a text, and the text from the next line on. -/
def Header.read? (s : Source) : Option (Header × Source) := do
  let (indicators, t) := (s.skip 1).span fun c => c.isDigit || c == '+' || c == '-'
  let header ← ofIndicators? (startsWith (· == '>') s.rest) indicators
  return (header, ← t.nextLine?)

/-! ## Lines -/

/-- What is read of the lines of a block scalar. -/
structure Lines where
  /-- The column where the lines start, once it is known. -/
  column : Option Nat
  /-- The largest column that was reached before it was known. -/
  deepest : Nat
  /-- Whether a line of text is being read. -/
  inText : Bool
  /-- Whether the last line of text starts with a blank. -/
  startsBlank : Bool
  /-- The line end after the last line of text, if there is one. -/
  lineEnd : List Char
  /-- The line ends of the empty lines after that, the last one first. -/
  further : List Char
  /-- The text without those line ends, in reverse. -/
  acc : List Char
  deriving DecidableEq, Repr

namespace Lines

/-- Whether a column is part of the indentation. -/
def isIndentation (t : Lines) (column : Nat) : Bool :=
  match t.column with
  | none => true
  | some first => column < first

/-- The lines with a new line of text that starts with a character. The line end before it is folded
if neither of the two lines starts with a blank. -/
def startText (isFolded : Bool) (column : Nat) (c : Char) (t : Lines) : Lines :=
  let joint :=
    if isFolded && t.lineEnd == ['\n'] && !t.startsBlank && !isBlank c then
      (if t.further.isEmpty then [' '] else [])
    else t.lineEnd
  { t with
    column := some column
    inText := true
    startsBlank := isBlank c
    lineEnd := []
    further := []
    acc := c :: (t.further ++ joint ++ t.acc) }

def text (t : Lines) : Chomping → String
  | .strip => .ofList t.acc.reverse
  | .clip => .ofList (t.lineEnd ++ t.acc).reverse
  | .keep => .ofList (t.further ++ t.lineEnd ++ t.acc).reverse

end Lines

/-- The rest of a block scalar whose lines start at least at a column, and what follows it. -/
def linesFrom? (header : Header) (least : Nat) (t : Lines) (place : Place) :
    List Char → Option (String × Source)
  | [] => some (t.text header.chomping, ⟨place, []⟩)
  | c :: rest =>
    if t.inText then
      let t := if isBreak c then { t with inText := false, lineEnd := [c] }
        else { t with acc := c :: t.acc }
      linesFrom? header least t (place.after c) rest
    else if isBlank c && t.isIndentation place.column then
      if c == '\t' then none
      else
        let t := { t with deepest := max t.deepest (place.column + 1) }
        linesFrom? header least t (place.after c) rest
    else if isBreak c then
      linesFrom? header least { t with further := c :: t.further } (place.after c) rest
    else
      let column := t.column.getD (max t.deepest least)
      if place.column = column then
        linesFrom? header least (t.startText header.isFolded column c) (place.after c) rest
      else some (t.text header.chomping, ⟨place, c :: rest⟩)

/-- The text of the block scalar that starts with the indicator at the start of a text, and what
follows it. The collection around it starts at the column `outer`, unless it is the document. -/
def read? (outer : Option Nat) (s : Source) : Option (String × Source) := do
  let (header, s) ← Header.read? s
  let column := header.width.map (outer.getD 0 + ·)
  let least := (outer.map (· + 1)).getD 1
  linesFrom? header least ⟨column, 0, false, false, [], [], []⟩ s.place s.rest

end NetLiteral.Yaml.Block
