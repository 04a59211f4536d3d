import NetLiteral.CommandError
import NetLiteral.Hosts
import NetLiteral.Json
import NetLiteral.Settings.Basic
import NetLiteral.Transcript

/-!
# Host lists

The hosts of a network, in order and up to a limit.
-/

namespace NetLiteral

/-- The hosts of a network as texts, and whether there are more. -/
structure HostsReport where
  route : String
  network : String
  broadcast : String
  hosts : List String
  truncated : Bool
  deriving DecidableEq, Repr

namespace HostsReport

def cut (route : String) (limit : Nat) : Log.Record :=
  ⟨.info, some "cidr", "Host list for " ++ route ++ " cut at " ++ toString limit⟩

def ofRoute {f : Family} (limit : Nat) (r : Route f) : Logged HostsReport :=
  let (listed, rest) := r.hosts.take limit
  let truncated := rest.first?.isSome
  let report :=
    ⟨TextForm.text r, TextForm.text r.address, TextForm.text r.broadcast,
      listed.map TextForm.text, truncated⟩
  ⟨report, if truncated then [cut (TextForm.text r) limit] else []⟩

/-- The first `limit` hosts of the network that a text denotes. -/
def of (text : String) (limit : Nat) : Logged (Except CommandError HostsReport) := do
  match ← TextForm.readEither (Route .ipv4) (Route .ipv6) text with
  | .ok (.inl r) => return .ok (← ofRoute limit r)
  | .ok (.inr r) => return .ok (← ofRoute limit r)
  | .error e => return .error (.invalidRoute text e)

def toJson (r : HostsReport) : Json :=
  .obj [("route", .str r.route), ("network", .str r.network), ("broadcast", .str r.broadcast),
    ("hosts", .arr (r.hosts.map .str)), ("truncated", .bool r.truncated)]

def omission (r : HostsReport) : List Emission :=
  if r.truncated then [.err ("(more hosts in " ++ r.route ++ " not shown)\n")] else []

/-- Prints a report; `write` writes its JSON form. -/
def printWith (write : Json → String) (output : OutputFormat) (r : HostsReport) :
    Transcript (Except CommandError Unit) := do
  match output with
  | .text => Transcript.emitAll (r.hosts.map (fun host => .out (host ++ "\n")) ++ r.omission)
  | .json => Transcript.emit (.out (write r.toJson ++ "\n"))
  return .ok ()

def print : OutputFormat → HostsReport → Transcript (Except CommandError Unit) :=
  printWith Json.pretty

/-- Lists the hosts of the network that a text denotes. -/
def run (output : OutputFormat) (text : String) (limit : Nat) :
    Transcript (Except CommandError Unit) := do
  match ← Transcript.ofLogged (of text limit) with
  | .ok report => print output report
  | .error e => return .error e

end HostsReport

end NetLiteral
