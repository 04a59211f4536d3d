import NetLiteral.Log.Record
import NetLiteral.Text.Quoted

/-!
# Log lines

A record is one line of columns: the service in twenty characters, the level in nine, and the
message. A service name that is too long is cut, and an ellipsis takes the last place. Widths count
characters.
-/

namespace NetLiteral.Log

/-- How lines are written: the name of the service and whether they are coloured. -/
structure LineStyle where
  service : String
  isColored : Bool
  deriving DecidableEq, Repr

/-- Lines are coloured on a terminal that can show colours. -/
def LineStyle.of (service : String) (onTerminal : Bool) (terminal : Option String) : LineStyle :=
  ⟨service, onTerminal && terminal != some "dumb"⟩

def serviceWidth : Nat :=
  20

def levelWidth : Nat :=
  9

def padRight (width : Nat) (s : String) : String :=
  s ++ String.ofList (List.replicate (width - s.length) ' ')

/-- The service column; a component is shown as part of the service. -/
def serviceColumn (service : String) (component : Option String) : String :=
  let name := match component with
    | some component => service ++ "-" ++ component
    | none => service
  if serviceWidth < name.length then
    String.ofList (name.toList.take (serviceWidth - 1)) ++ "…"
  else padRight serviceWidth name

def Level.label : Level → String
  | error => "✗ ERROR"
  | warn => "⚠ WARN"
  | info => "ℹ INFO"
  | debug => "◦ DEBUG"
  | trace => "◦ TRACE"

def levelColumn (level : Level) : String :=
  padRight levelWidth level.label

/-- The control sequence for the colour of a level. -/
def Level.color : Level → String
  | error => "\x1b[91m"
  | warn => "\x1b[93m"
  | info => "\x1b[32m"
  | debug => "\x1b[90m"
  | trace => "\x1b[90m"

def startColor : String :=
  "\x1b[36m"

def endColor : String :=
  "\x1b[0m"

/-- The line of a record, with `stamp` before its columns. -/
def LineStyle.line (style : LineStyle) (stamp : String) (r : Record) : String :=
  let colored (sequence : String) : String := if style.isColored then sequence else ""
  colored startColor ++ stamp ++ "[" ++ serviceColumn style.service r.component ++ "] [" ++
    colored r.level.color ++ levelColumn r.level ++ colored endColor ++ "] " ++ r.message ++
    colored endColor ++ "\n"

/-- The name of a component that was given as a value to be shown in quotes. -/
def shownComponent (component : String) : String :=
  Text.Quoted.trim (Text.Quoted.encode component)

end NetLiteral.Log
