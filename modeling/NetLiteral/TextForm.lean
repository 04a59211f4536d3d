import NetLiteral.Parser

/-!
# Text forms

Every value of this library has one canonical text, and a parser that reads that text and possibly
others at a cursor.
-/

namespace NetLiteral

/-- How the values of a type are read and written. -/
class TextForm (α : Type) where
  /-- The kind of literal named when input is left over after the value. -/
  literal : Literal
  /-- Reads a value at a cursor and leaves the cursor alone on failure. -/
  parser : Parser α
  /-- The bytes of the canonical text. -/
  write : α → Bytes

namespace TextForm

variable {α : Type} [TextForm α]

def text (a : α) : String :=
  Bytes.toText (write a)

variable (α) in
def read (s : String) : Logged (Except Failure α) :=
  Parser.parseAll (literal α) parser (Bytes.ofString s)

variable (α) in
/-- The canonical text of the value that the whole of a text denotes. -/
def reformat (s : String) : Logged (Except Failure String) := do
  return (← read α s).map text

/-- Reads the whole of a text as a value of the first type or, if that fails, of the second one.
If both fail, the failure is the one that got further. -/
def readEither (α β : Type) [TextForm α] [TextForm β] (s : String) :
    Logged (Except Failure (α ⊕ β)) := do
  match ← read α s with
  | .ok a => return .ok (.inl a)
  | .error e₁ =>
    match ← read β s with
    | .ok b => return .ok (.inr b)
    | .error e₂ => return .error (e₁.furthest e₂)

end TextForm

end NetLiteral
