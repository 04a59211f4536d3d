import NetLiteral.Cursor
import NetLiteral.Failure
import NetLiteral.Log.Record

/-!
# Parsers

A parser moves a cursor and gives a value or a failure. A failing parser leaves the cursor where it
stopped; only `attempt` gives input back, and it records that it did. Every reader of a literal is
an `attempt`, so alternatives can be tried one after another from the same place.
-/

namespace NetLiteral

variable {α β : Type}

/-- What a parser leaves: a value or a failure, the cursor, and the records of the run. -/
structure Outcome (α : Type) where
  result : Except Failure α
  cursor : Cursor
  log : List Log.Record

def Parser (α : Type) : Type :=
  Cursor → Outcome α

namespace Parser

/-- Gives a value and leaves the cursor alone. -/
def succeed (a : α) : Parser α :=
  fun c => ⟨.ok a, c, []⟩

def fail (e : Failure) : Parser α :=
  fun c => ⟨.error e, c, []⟩

/-- Runs `p` and then, if it gave a value, the parser for that value. -/
def andThen (p : Parser α) (f : α → Parser β) : Parser β :=
  fun c =>
    match p c with
    | ⟨.ok a, c', log⟩ =>
      let o := f a c'
      { o with log := log ++ o.log }
    | ⟨.error e, c', log⟩ => ⟨.error e, c', log⟩

instance : Monad Parser where
  pure := succeed
  bind := andThen

def position : Parser Nat :=
  fun c => ⟨.ok c.position, c, []⟩

def peek : Parser (Option UInt8) :=
  fun c => ⟨.ok c.peek, c, []⟩

/-- Whether `b` was next, in which case it is consumed. -/
def eat (b : UInt8) : Parser Bool :=
  fun c =>
    match c.eat? b with
    | some c' => ⟨.ok true, c', []⟩
    | none => ⟨.ok false, c, []⟩

/-- Consumes the longest run of ASCII bytes of a class. Inside a character the run is empty; it is
`Scan.takeWhile` that is stopped there, since it slices the run out of the text. -/
def takeWhile (isMember : UInt8 → Bool) : Parser Bytes :=
  fun c => ⟨.ok (c.run isMember), c.advance (c.run isMember).length, []⟩

/-- The bytes consumed since an earlier offset. `Scan.since` slices them out of the text, and is
stopped inside a character and by an offset further on. -/
def since (start : Nat) : Parser Bytes :=
  fun c => ⟨.ok (c.since start), c, []⟩

def expect (b : UInt8) (literal : Literal) : Parser Unit :=
  fun c =>
    match c.eat? b with
    | some c' => ⟨.ok (), c', []⟩
    | none => ⟨.error ⟨literal, c.position, .expected (Char.ofUInt8 b)⟩, c, []⟩

def finish (literal : Literal) : Parser Unit :=
  fun c => if c.isAtEnd then ⟨.ok (), c, []⟩ else ⟨.error ⟨literal, c.position, .trailing⟩, c, []⟩

def backtracking (stopped mark : Nat) : Log.Record :=
  ⟨.trace, none, s!"backtracking {stopped - mark} bytes to offset {mark}"⟩

/-- Runs `p`, and gives back all it consumed if it fails. -/
def attempt (p : Parser α) : Parser α :=
  fun c =>
    match p c with
    | ⟨.ok a, c', log⟩ => ⟨.ok a, c', log⟩
    | ⟨.error e, c', log⟩ => ⟨.error e, c, log ++ [backtracking c'.position c.position]⟩

/-- Like `attempt`, with the bytes that the value was read from. -/
def recognize (p : Parser α) : Parser (α × Bytes) := do
  let start ← position
  let a ← attempt p
  let matched ← since start
  return (a, matched)

def mapFailure (f : Failure → Failure) (p : Parser α) : Parser α :=
  fun c => { p c with result := (p c).result.mapError f }

/-- Adds a record to the run of a parser that fails. -/
def onFailure (p : Parser α) (report : Failure → Log.Record) : Parser α :=
  fun c =>
    match p c with
    | ⟨.ok a, c', log⟩ => ⟨.ok a, c', log⟩
    | ⟨.error e, c', log⟩ => ⟨.error e, c', log ++ [report e]⟩

/-- Tries parsers in order until one gives a value. If none does, the failure is the furthest of
`e` and theirs. -/
def choice (e : Failure) : List (Parser α) → Parser α
  | [] => fail e
  | p :: ps => fun c =>
    match p c with
    | ⟨.ok a, c', log⟩ => ⟨.ok a, c', log⟩
    | ⟨.error e', c', log⟩ =>
      let o := choice (e.furthest e') ps c'
      { o with log := log ++ o.log }

def parseAll (literal : Literal) (p : Parser α) (text : Bytes) : Logged (Except Failure α) :=
  let o := (do let a ← p; finish literal; return a : Parser α) (.ofBytes text)
  ⟨o.result, o.log⟩

end Parser

end NetLiteral
