import NetLiteral.Address.Text

/-!
# Routes

A route is a network: an address without host bits and the length of its prefix, as in
`10.0.0.0/24`. Longer prefixes come first in the order of routes, so the first route of a sorted
list that contains an address is the most specific one.
-/

namespace NetLiteral

/-- A network in canonical form: the host bits of its address are clear. -/
structure Route (f : Family) where
  address : Address f
  prefixLength : PrefixLength f
  network_eq : address.network prefixLength = address
  deriving DecidableEq, Repr

namespace Route

variable {f : Family}

def of (a : Address f) (p : PrefixLength f) : Route f :=
  ⟨a.network p, p, a.network_network p⟩

def zero : Route f :=
  of Address.zero PrefixLength.zero

instance : Inhabited (Route f) :=
  ⟨zero⟩

/-- Longer prefixes come first; routes with prefixes of one length are ordered by address. -/
instance : Ord (Route f) :=
  ⟨compareLex (fun r s => compare s.prefixLength.len r.prefixLength.len) (compareOn address)⟩

def broadcast (r : Route f) : Address f :=
  r.address.broadcast r.prefixLength

def contains (r : Route f) (a : Address f) : Bool :=
  Octets.sameNetwork a.octets r.address.octets r.prefixLength.len

/-- The record of a route that could not be read. -/
def rejected (f : Family) (start : Nat) (e : Failure) : Log.Record :=
  ⟨.debug, none, s!"no {f.literal.name} route at offset {start}: {e.message}"⟩

/-- Reads a route, and gives all of it back if any part fails. Host bits are cleared. -/
def parser : Parser (Route f) := do
  let start ← Parser.position
  let parts : Parser (Route f) := do
    let a ← Address.parser
    Parser.expect Byte.slash .route
    let p ← PrefixLength.parser
    return of a p
  parts.attempt.onFailure (rejected f start)

def write (r : Route f) : Bytes :=
  r.address.write ++ Byte.slash :: Numeral.decimal r.prefixLength.len

instance : TextForm (Route f) where
  literal := .route
  parser := parser
  write := write

def describe (r : Route f) : String :=
  "Route(" ++ TextForm.text r ++ ")"

end Route

end NetLiteral
