import NetLiteral.CommandError
import NetLiteral.Json
import NetLiteral.RouteTable
import NetLiteral.Settings.Basic
import NetLiteral.Text.Quoted
import NetLiteral.Transcript

/-!
# Longest-prefix matches

The routes for an address, out of a list of candidates. Candidates that are no routes of the
address's version are skipped.
-/

namespace NetLiteral

/-- The routes for an address as texts, most specific first. -/
structure LookupReport where
  address : String
  /-- The most specific route that contains the address. -/
  route : Option String
  /-- All routes that contain the address. -/
  containing : List String
  /-- All routes that were candidates. -/
  table : List String
  deriving DecidableEq, Repr

namespace LookupReport

variable {f : Family}

/-- The record of a candidate that is no route. -/
def skipping (text : String) (e : Failure) : Log.Record :=
  let message := "Skipping route " ++ Text.Quoted.encode text ++ ": " ++ e.message
  ⟨.warn, some "table", message⟩

def addCandidate (t : RouteTable f Unit) (text : String) : Logged (RouteTable f Unit) := do
  match ← TextForm.read (Route f) text with
  | .ok r => return (← t.insert r ()).2
  | .error e =>
    Logged.emit (skipping text e)
    return t

/-- The table of the candidates that are routes. -/
def tableOf (f : Family) (routes : List String) : Logged (RouteTable f Unit) :=
  routes.foldlM addCandidate .empty

def texts (entries : List (Route f × Unit)) : List String :=
  entries.map fun e => TextForm.text e.1

def ofTable (a : Address f) (t : RouteTable f Unit) : Logged LookupReport := do
  let found ← t.lookup a
  return ⟨TextForm.text a, found.map fun e => TextForm.text e.1, texts (t.containing a),
    texts t.entries⟩

/-- The routes for an address among candidates. -/
def ofAddress (ip : Address f → IpAddress) (a : Address f) (routes : List String) :
    Logged (Except CommandError LookupReport) := do
  let t ← tableOf f routes
  if t.isEmpty then return .error (.noUsableRoutes (ip a))
  else return .ok (← ofTable a t)

/-- The routes for the address that a text denotes. -/
def of (address : String) (routes : List String) :
    Logged (Except CommandError LookupReport) := do
  match ← TextForm.read IpAddress address with
  | .ok (.v4 a) => ofAddress .v4 a routes
  | .ok (.v6 a) => ofAddress .v6 a routes
  | .error e => return .error (.invalidAddress address e)

def toJson (r : LookupReport) : Json :=
  .obj [("address", .str r.address), ("route", r.route.elim .null .str),
    ("matches", .arr (r.containing.map .str)), ("table", .arr (r.table.map .str))]

def toLines (r : LookupReport) : List Emission :=
  r.route.toList.map fun route => .out (route ++ "\n")

/-- Prints a report; one without a route fails. `write` writes the JSON form of a report. -/
def printWith (write : Json → String) (output : OutputFormat) (r : LookupReport) :
    Transcript (Except CommandError Unit) := do
  match output with
  | .text => Transcript.emitAll r.toLines
  | .json => Transcript.emit (.out (write r.toJson ++ "\n"))
  return if r.route.isSome then .ok () else .error (.noRoute r.address)

def print : OutputFormat → LookupReport → Transcript (Except CommandError Unit) :=
  printWith Json.pretty

def run (output : OutputFormat) (address : String) (routes : List String) :
    Transcript (Except CommandError Unit) := do
  match ← Transcript.ofLogged (of address routes) with
  | .ok report => print output report
  | .error e => return .error e

end LookupReport

end NetLiteral
