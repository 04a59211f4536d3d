import NetLiteral.Host
import NetLiteral.Endpoint
import NetLiteral.Route

/-!
# Kinds

The kinds of text that the program canonicalises. An endpoint or a route may be of either version of
IP; all other kinds are one type of value.
-/

namespace NetLiteral

inductive Kind
  | ipv4
  | ipv6
  | ethernet
  | ip
  | hostname
  | host
  | endpoint
  | route
  | prefix4
  | prefix6
  deriving DecidableEq, Repr

namespace Kind

def all : List Kind :=
  [ipv4, ipv6, ethernet, ip, hostname, host, endpoint, route, prefix4, prefix6]

def name : Kind → String
  | ipv4 => "ipv4"
  | ipv6 => "ipv6"
  | ethernet => "ethernet"
  | ip => "ip"
  | hostname => "hostname"
  | host => "host"
  | endpoint => "endpoint"
  | route => "route"
  | prefix4 => "prefix4"
  | prefix6 => "prefix6"

def ofName? (name : String) : Option Kind :=
  all.find? fun k => k.name == name

/-- The canonical text of a value of one of two types. -/
def reformatEither (α β : Type) [TextForm α] [TextForm β] (s : String) :
    Logged (Except Failure String) := do
  return (← TextForm.readEither α β s).map (Sum.elim TextForm.text TextForm.text)

/-- The canonical text of the value of a kind that the whole of a text denotes. -/
def canonical : Kind → String → Logged (Except Failure String)
  | ipv4 => TextForm.reformat (Address .ipv4)
  | ipv6 => TextForm.reformat (Address .ipv6)
  | ethernet => TextForm.reformat (Address .ethernet)
  | ip => TextForm.reformat IpAddress
  | hostname => TextForm.reformat Hostname
  | host => TextForm.reformat Host
  | endpoint => reformatEither (Endpoint .v4) (Endpoint .v6)
  | route => reformatEither (Route .ipv4) (Route .ipv6)
  | prefix4 => TextForm.reformat (PrefixLength .ipv4)
  | prefix6 => TextForm.reformat (PrefixLength .ipv6)

end Kind

end NetLiteral
