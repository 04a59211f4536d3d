import NetLiteral.Log.Record
import NetLiteral.Numeral
import NetLiteral.Text.CodeRange

/-!
# Log levels as texts

How talkative the log is, given by the name of a level in any case, by a number from 0 to 5, or by
`off`. An empty text asks for everything. A comma may stand at the end.
-/

namespace NetLiteral.Log

/-- Why a text does not say how talkative the log is. -/
inductive LevelProblem
  | unknownLevel
  /-- Something stands after the comma at the end. -/
  | continued
  deriving DecidableEq, Repr

/-- The names of log levels, from the quietest. -/
def levelNames : List String :=
  ["off", "error", "warn", "info", "debug", "trace"]

def verbosityOfLevel? (level : String) : Option Nat :=
  if level = "" then some Level.trace.verbosity
  else
    match Numeral.word? level with
    | some n => if n ≤ Level.trace.verbosity then some n else none
    | none =>
      let word := level.map Char.toLower
      levelNames.findIdx? fun name => name == word

def whiteSpaceRanges : List (Nat × Nat) :=
  [(0x09, 0x0D), (0x20, 0x20), (0x85, 0x85), (0xA0, 0xA0), (0x1680, 0x1680), (0x2000, 0x200A),
    (0x2028, 0x2029), (0x202F, 0x202F), (0x205F, 0x205F), (0x3000, 0x3000)]

/-- The verbosity that a text asks for. White space may follow the comma at its end. -/
def verbosity (text : String) : Except LevelProblem Nat :=
  let (level, rest) := text.toList.span (· != ',')
  match verbosityOfLevel? (.ofList level) with
  | none => .error .unknownLevel
  | some v => if rest.tail.all (Text.inRanges whiteSpaceRanges) then .ok v else .error .continued

end NetLiteral.Log
