import NetLiteral.TextForm

/-!
# Hostnames

A hostname is a list of labels joined by dots. A label begins and ends with a letter or a digit,
may hold dashes in between, and is not a number. Names are compared as written, without regard to
what case means elsewhere.
-/

namespace NetLiteral

/-! ## Labels -/

namespace Label

def maxLength : Nat :=
  63

def isValid (bs : Bytes) : Bool :=
  bs.length ≤ maxLength && bs.all Byte.isLabel && bs.head?.any Byte.isLabelRegular &&
    bs.getLast?.any Byte.isLabelRegular && !bs.all Byte.isDigit

end Label

structure Label where
  bytes : Bytes
  valid : Label.isValid bytes = true
  deriving DecidableEq, Repr

namespace Label

/-- Reads a label. A run of label bytes that is not too long and yet no label is malformed. -/
def parser : Parser Label :=
  .attempt do
    let start ← Parser.position
    match ← Parser.peek with
    | none => Parser.fail ⟨.label, start, .empty⟩
    | some b =>
      if !Byte.isLabelRegular b then
        Parser.fail ⟨.label, start, if Byte.isLabel b then .malformed else .empty⟩
      else
        let text ← Parser.takeWhile Byte.isLabel
        if maxLength < text.length then Parser.fail ⟨.label, start, .tooLong⟩
        else if h : isValid text then return ⟨text, h⟩
        else Parser.fail ⟨.label, start, .malformed⟩

end Label

/-! ## Names -/

namespace Hostname

/-- The greatest length of a hostname, dots included. -/
def maxLength : Nat :=
  255

def join (labels : List Label) : Bytes :=
  Bytes.join Byte.dot (labels.map Label.bytes)

end Hostname

/-- One or more labels, short enough together. -/
structure Hostname where
  labels : List Label
  labels_ne_nil : labels ≠ []
  length_le : (Hostname.join labels).length ≤ Hostname.maxLength
  deriving DecidableEq, Repr

namespace Hostname

def write (h : Hostname) : Bytes :=
  join h.labels

instance : Ord Hostname :=
  ⟨compareOn write⟩

/-- Reads a label of a hostname: its failures are failures of the hostname. -/
def labelPart : Parser Label :=
  Label.parser.mapFailure fun e => { e with literal := .hostname }

/-- Reads up to `n` further labels, each after a dot. -/
def furtherLabels : Nat → Parser (List Label)
  | 0 => return []
  | n + 1 => do
    if ← Parser.eat Byte.dot then
      let label ← labelPart
      let labels ← furtherLabels n
      return label :: labels
    else return []

/-- Reads further labels as long as a dot follows; there are never more than unread bytes. -/
def labelsAfterDots : Parser (List Label) :=
  fun c => furtherLabels c.unread.length c

/-- Reads a hostname. A dot that no label follows makes the whole name fail. -/
def parser : Parser Hostname :=
  .attempt do
    let start ← Parser.position
    let label ← labelPart
    let labels ← labelsAfterDots
    if h : (join (label :: labels)).length ≤ maxLength then
      return ⟨label :: labels, List.cons_ne_nil _ _, h⟩
    else Parser.fail ⟨.hostname, start, .tooLong⟩

instance : TextForm Hostname where
  literal := .hostname
  parser := parser
  write := write

def describe (h : Hostname) : String :=
  "Hostname(\"" ++ TextForm.text h ++ "\")"

end Hostname

end NetLiteral
