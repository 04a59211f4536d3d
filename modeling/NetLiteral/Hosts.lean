import NetLiteral.Route

/-!
# Host addresses

The hosts of a network are the addresses strictly between its network address and its broadcast
address. Networks with fewer than two host bits have none.
-/

namespace NetLiteral

/-- The hosts still to be listed: from `next`, if there is such an address, up to but not including
`stop`. -/
structure Hosts (f : Family) where
  next : Option (Address f)
  stop : Address f
  deriving DecidableEq, Repr

namespace Hosts

variable {f : Family}

/-- The addresses strictly between two addresses. -/
def between (network broadcast : Address f) : Hosts f :=
  ⟨network.successor?, broadcast⟩

def first? (h : Hosts f) : Option (Address f) :=
  h.next.filter fun a => (compare a h.stop).isLT

def next? (h : Hosts f) : Option (Address f × Hosts f) :=
  h.first?.map fun a => (a, { h with next := a.successor? })

/-- Lists up to `n` hosts, in reverse order before `acc`, and gives the hosts left over. -/
def takeOnto : Nat → Hosts f → List (Address f) → List (Address f) × Hosts f
  | 0, h, acc => (acc.reverse, h)
  | n + 1, h, acc =>
    match h.next? with
    | none => (acc.reverse, h)
    | some (a, rest) => takeOnto n rest (a :: acc)

/-- The first `n` hosts, or all if there are fewer, and the hosts left over. -/
def take (h : Hosts f) (n : Nat) : List (Address f) × Hosts f :=
  takeOnto n h []

/-- The host after the first `n`, if any, and the hosts left over. -/
def nth (h : Hosts f) (n : Nat) : Option (Address f) × Hosts f :=
  let rest := (h.take n).2
  match rest.next? with
  | none => (none, rest)
  | some (a, rest) => (some a, rest)

end Hosts

def Route.hosts {f : Family} (r : Route f) : Hosts f :=
  .between r.address r.broadcast

end NetLiteral
