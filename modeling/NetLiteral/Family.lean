import NetLiteral.ByteClass
import NetLiteral.Failure

/-!
# Address families

A family fixes the width of its addresses and the bytes their literals are made of.
-/

namespace NetLiteral

inductive Family
  | ipv4
  | ipv6
  | ethernet
  deriving DecidableEq, Repr

namespace Family

def width : Family → Nat
  | ipv4 => 4
  | ipv6 => 16
  | ethernet => 6

/-- The width of an address in bits, which is the greatest prefix length. -/
def bits (f : Family) : Nat :=
  8 * f.width

/-- The kind of literal that denotes an address. -/
def literal : Family → Literal
  | ipv4 => .ipv4
  | ipv6 => .ipv6
  | ethernet => .ethernet

def isMember : Family → UInt8 → Bool
  | ipv4 => Byte.isIpv4
  | ipv6 => Byte.isIpv6
  | ethernet => Byte.isEthernet

end Family

/-- The two versions of IP, whose addresses carry ports. -/
inductive IpVersion
  | v4
  | v6
  deriving DecidableEq, Repr

namespace IpVersion

def family : IpVersion → Family
  | v4 => .ipv4
  | v6 => .ipv6

/-- Whether an address stands in brackets before its port. -/
def isBracketed : IpVersion → Bool
  | v4 => false
  | v6 => true

end IpVersion

end NetLiteral
