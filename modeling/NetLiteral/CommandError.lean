import NetLiteral.Host
import NetLiteral.Log.Filter

/-!
# Errors of commands

Why a command of the program fails. An error may have a cause, which is shown below it.
-/

namespace NetLiteral

inductive CommandError
  /-- Some inputs have no canonical text. -/
  | inputsRejected (failed total : Nat)
  /-- A text is a route of neither version. -/
  | invalidRoute (text : String) (e : Failure)
  /-- A text is no IP address. -/
  | invalidAddress (text : String) (e : Failure)
  /-- No candidate is a route of the address's version. -/
  | noUsableRoutes (a : IpAddress)
  /-- No route contains an address. -/
  | noRoute (address : String)
  /-- A text does not say how talkative the log is. -/
  | invalidLogLevel (problem : Log.LevelProblem)
  deriving DecidableEq, Repr

namespace CommandError

def logLevelMessage : String :=
  "error parsing level filter: expected one of \"off\", \"error\", \"warn\", \"info\", " ++
    "\"debug\", \"trace\", or a number 0-5"

def message : CommandError → String
  | inputsRejected failed total => s!"{failed} of {total} inputs failed to parse"
  | invalidRoute text _ => "Invalid route: " ++ text
  | invalidAddress text _ => "Invalid address: " ++ text
  | noUsableRoutes a => "No usable routes for " ++ TextForm.text a
  | noRoute address => "No route to " ++ address
  | invalidLogLevel .unknownLevel => logLevelMessage
  | invalidLogLevel .continued => "invalid filter directive"

def cause? : CommandError → Option String
  | invalidRoute _ e => some e.message
  | invalidAddress _ e => some e.message
  | invalidLogLevel .unknownLevel => some logLevelMessage
  | _ => none

def chain (e : CommandError) : List String :=
  e.message :: e.cause?.toList

/-- The error as the last message of a program. -/
def report (e : CommandError) : String :=
  let cause := match e.cause? with
    | some cause => "\n\nCaused by:\n    " ++ cause
    | none => ""
  "Error: " ++ e.message ++ cause ++ "\n"

end CommandError

end NetLiteral
