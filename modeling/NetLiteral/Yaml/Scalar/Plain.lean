import NetLiteral.Yaml.Scalar.Gap
import NetLiteral.Yaml.Source

/-!
# Plain scalars

A plain scalar has no quotes. It goes on until something that cannot belong to it: a comment, a
colon that ends a key, a mark of the document, between brackets also a comma or a bracket, and
outside of them a line that is indented too little.
-/

namespace NetLiteral.Yaml

structure Plain where
  text : String
  /-- Whether a line end follows its last word. -/
  endsLine : Bool
  source : Source
  deriving DecidableEq, Repr

namespace Plain

/-- Whether a plain scalar may start where this text starts. -/
def canStart (inFlow : Bool) : List Char → Bool
  | [] => false
  | c :: rest =>
    if c == '-' then !startsWith isBlank rest
    else if c == '?' || c == ':' then !inFlow && !endsWord rest
    else !(isSpace c || isFlowIndicator c || "#&*!|>'\"%@\x60".contains c)

/-- Whether a colon with that text behind it cannot be read between brackets. -/
def isStrayColon (c : Char) (rest : List Char) : Bool :=
  c == ':' && startsWith (fun d => isFlowIndicator d || d == '?') rest

/-- Whether a character with that text behind it ends a plain scalar, even within a word. -/
def isEnd (inFlow : Bool) (c : Char) (rest : List Char) : Bool :=
  (c == ':' && endsWord rest) || (inFlow && isFlowIndicator c)

/-- Whether a word with these characters in front cannot go on a scalar after a gap. -/
def isCutOff (inFlow : Bool) (column : Nat) (place : Place) (word : List Char) : Bool :=
  isDocumentMark place word || startsWith (· == '#') word || (!inFlow && place.column < column)

/-- The rest of a plain scalar whose lines start at least at a column. The characters so far are in
reverse, and a gap after them counts only if another word follows. -/
def readFrom? (inFlow : Bool) (column : Nat) (acc : List Char) (gap : Gap) (place : Place) :
    List Char → Option Plain
  | [] => some ⟨.ofList acc.reverse, gap.crossesLine, ⟨place, []⟩⟩
  | c :: rest =>
    if isSpace c then
      if c == '\t' && gap.crossesLine && place.column < column then none
      else readFrom? inFlow column acc (gap.add c) (place.after c) rest
    else if gap ≠ .empty ∧ isCutOff inFlow column place (c :: rest) then
      some ⟨.ofList acc.reverse, gap.crossesLine, ⟨place, c :: rest⟩⟩
    else if inFlow && isStrayColon c rest then none
    else if isEnd inFlow c rest then
      some ⟨.ofList acc.reverse, gap.crossesLine, ⟨place, c :: rest⟩⟩
    else readFrom? inFlow column (c :: (gap.text.reverse ++ acc)) .empty (place.after c) rest

def read? (inFlow : Bool) (column : Nat) (s : Source) : Option Plain :=
  readFrom? inFlow column [] .empty s.place s.rest

end Plain

end NetLiteral.Yaml
