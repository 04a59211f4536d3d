import NetLiteral.Parser

/-!
# Scripts of cursor steps

A script is a list of steps on one cursor: looks, moves, readers of literals, and attempts at inner
scripts. Each step gives an answer; the script ends with its first failure, unless the failing step
was marked as tolerated. The answers hold what every step gave and where it left the cursor.

The steps work on bytes. A text cannot be sliced inside a character, nor up to an offset from one
that is further on: what `rest`, `since` and `takeWhile` give there is given of the bytes alone, and
`Bytes.slice`, `Scan.since` and `Scan.takeWhile` tell where the text would have stopped them.
-/

namespace NetLiteral.Script

/-- One step. The values that its readers give are of type `α`. -/
inductive Step (α : Type)
  | peek
  | rest
  | isAtEnd
  | since (start : Nat)
  | eat (b : UInt8)
  | takeWhile (isMember : UInt8 → Bool)
  | expect (b : UInt8) (literal : Literal)
  | finish (literal : Literal)
  | fail (e : Failure)
  | parse (p : Parser α)
  | recognize (p : Parser α)
  /-- Runs inner steps and gives everything back if one of them fails. -/
  | attempt (steps : List (Step α))
  /-- Like `attempt`, with the bytes consumed. -/
  | recognizeSteps (steps : List (Step α))
  /-- Runs a step whose failure does not end the script. -/
  | tolerate (step : Step α)

inductive Value (α : Type)
  | nothing
  | flag (b : Bool)
  | byte (b : Option UInt8)
  | bytes (bs : Bytes)
  | read (a : α)
  | matched (a : α) (bs : Bytes)
  | matchedSteps (bs : Bytes)

/-- The answer to a step: its result, the offset after it, and the answers to its inner steps. -/
inductive Answer (α : Type)
  | mk (result : Except Failure (Value α)) (position : Nat) (inner : Option (List (Answer α)))

def Answer.result {α : Type} : Answer α → Except Failure (Value α)
  | mk result _ _ => result

structure Trace (α : Type) where
  answers : List (Answer α)
  /-- The failure that ended the steps, if one did. -/
  failure : Option Failure
  cursor : Cursor
  log : List Log.Record

variable {α : Type}

/-- Ends an attempt that started at `mark`: a failure gives back what was consumed since. -/
def Trace.settle (mark : Cursor) (value : Value α) (t : Trace α) : Answer α × Trace α :=
  match t.failure with
  | none => (.mk (.ok value) t.cursor.position t.answers, t)
  | some e =>
    let record := Parser.backtracking t.cursor.position mark.position
    (.mk (.error e) mark.position t.answers, { t with cursor := mark, log := t.log ++ [record] })

/-- The trace of a single step that runs a parser. -/
def Trace.ofParser (p : Parser (Value α)) (c : Cursor) : Trace α :=
  let o := p c
  let answer := .mk o.result o.cursor.position none
  match o.result with
  | .ok _ => ⟨[answer], none, o.cursor, o.log⟩
  | .error e => ⟨[answer], some e, o.cursor, o.log⟩

mutual

/-- Runs one step; the trace holds its answer. No slice of the text is checked. -/
def runStep : Step α → Cursor → Trace α
  | .peek, c => .ofParser (.byte <$> Parser.peek) c
  | .rest, c => .ofParser (Parser.succeed (.bytes c.unread)) c
  | .isAtEnd, c => .ofParser (Parser.succeed (.flag c.isAtEnd)) c
  | .since start, c => .ofParser (.bytes <$> Parser.since start) c
  | .eat b, c => .ofParser (.flag <$> Parser.eat b) c
  | .takeWhile isMember, c => .ofParser (.bytes <$> Parser.takeWhile isMember) c
  | .expect b literal, c => .ofParser ((fun _ => .nothing) <$> Parser.expect b literal) c
  | .finish literal, c => .ofParser ((fun _ => .nothing) <$> Parser.finish literal) c
  | .fail e, c => .ofParser (Parser.fail e) c
  | .parse p, c => .ofParser (.read <$> p) c
  | .recognize p, c => .ofParser ((fun (a, bs) => .matched a bs) <$> p.recognize) c
  | .attempt steps, c =>
    let (answer, t) := (run steps c).settle c .nothing
    { t with answers := [answer] }
  | .recognizeSteps steps, c =>
    let t := run steps c
    let (answer, t) := t.settle c (.matchedSteps (t.cursor.since c.position))
    { t with answers := [answer] }
  | .tolerate step, c => { runStep step c with failure := none }

def run : List (Step α) → Cursor → Trace α
  | [], c => ⟨[], none, c, []⟩
  | step :: steps, c =>
    let t := runStep step c
    match t.failure with
    | some e => ⟨t.answers, some e, t.cursor, t.log⟩
    | none =>
      let rest := run steps t.cursor
      ⟨t.answers ++ rest.answers, rest.failure, rest.cursor, t.log ++ rest.log⟩

end

end NetLiteral.Script
