import NetLiteral.Octets
import NetLiteral.PrefixLength

/-!
# Addresses

An address is as many octets as its family is wide. Addresses are ordered octet by octet from the
most significant one, which is the order of their values as numbers.
-/

namespace NetLiteral

/-- An address of a family, as big-endian octets. -/
structure Address (f : Family) where
  octets : Bytes
  length_octets : octets.length = f.width
  deriving DecidableEq, Repr

namespace Address

variable {f : Family}

def value (a : Address f) : Nat :=
  Octets.value a.octets

def zero : Address f :=
  ⟨List.replicate f.width 0, List.length_replicate⟩

instance : Inhabited (Address f) :=
  ⟨zero⟩

instance : Ord (Address f) :=
  ⟨compareOn octets⟩

instance : LT (Address f) :=
  ltOfOrd

instance : LE (Address f) :=
  leOfOrd

/-- The address with all its host bits cleared. -/
def network (a : Address f) (p : PrefixLength f) : Address f :=
  ⟨Octets.network a.octets p.len, by rw [Octets.length_network, a.length_octets]⟩

def broadcast (a : Address f) (p : PrefixLength f) : Address f :=
  ⟨Octets.broadcast a.octets p.len, by rw [Octets.length_broadcast, a.length_octets]⟩

def successor? (a : Address f) : Option (Address f) :=
  if (Octets.increment a.octets).1 then
    some ⟨(Octets.increment a.octets).2, by rw [Octets.length_increment, a.length_octets]⟩
  else none

theorem network_network (a : Address f) (p : PrefixLength f) :
    (a.network p).network p = a.network p := by
  simp [network, Octets.network_network]

end Address

end NetLiteral
