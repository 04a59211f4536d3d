import NetLiteral.Route
import Std.Data.TreeMap

/-!
# Route tables

A table maps networks to values in the order of routes, most specific first. The first network of
that order that contains an address is its longest-prefix match.
-/

namespace NetLiteral

structure RouteTable (f : Family) (α : Type) where
  routes : Std.TreeMap (Route f) α

namespace RouteTable

variable {f : Family} {α : Type}

def empty : RouteTable f α :=
  ⟨∅⟩

/-- The entries of a table in the order of their routes. -/
def entries (t : RouteTable f α) : List (Route f × α) :=
  t.routes.toList

def size (t : RouteTable f α) : Nat :=
  t.routes.size

def isEmpty (t : RouteTable f α) : Bool :=
  t.routes.isEmpty

def get? (t : RouteTable f α) (r : Route f) : Option α :=
  t.routes[r]?

/-- Adds a route or replaces its value, and gives the value it had before. -/
def insert (t : RouteTable f α) (r : Route f) (a : α) : Logged (Option α × RouteTable f α) :=
  ⟨(t.get? r, ⟨t.routes.insert r a⟩), [⟨.debug, none, "Adding route " ++ TextForm.text r⟩]⟩

/-- Removes a route, and gives the value it had. -/
def remove (t : RouteTable f α) (r : Route f) : Logged (Option α × RouteTable f α) :=
  let removed := t.get? r
  let log := if removed.isSome then [⟨.debug, none, "Removed route " ++ TextForm.text r⟩] else []
  ⟨(removed, ⟨t.routes.erase r⟩), log⟩

def clear (_ : RouteTable f α) : Logged (RouteTable f α) :=
  ⟨empty, [⟨.info, none, "Route table cleared"⟩]⟩

/-- The table of a list of entries; the last entry for a route counts. -/
def ofList (entries : List (Route f × α)) : RouteTable f α :=
  ⟨entries.foldl (fun t e => t.insert e.1 e.2) ∅⟩

/-- The entries whose networks contain an address, most specific first. -/
def containing (t : RouteTable f α) (a : Address f) : List (Route f × α) :=
  t.entries.filter fun e => e.1.contains a

/-- The entry of the most specific network that contains an address. -/
def lookup (t : RouteTable f α) (a : Address f) : Logged (Option (Route f × α)) :=
  let found := t.entries.find? fun e => e.1.contains a
  let message :=
    match found with
    | some (r, _) => "Matched " ++ TextForm.text a ++ " via " ++ TextForm.text r
    | none => "No route to " ++ TextForm.text a
  ⟨found, [⟨.debug, none, message⟩]⟩

end RouteTable

end NetLiteral
