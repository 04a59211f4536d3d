import NetLiteral.Address.Ipv6
import NetLiteral.Endpoint
import NetLiteral.Host
import Std.Net.Addr

/-!
# Socket addresses

IP addresses and endpoints as the addresses of the standard library, and back. Octets and groups
are carried over one by one, so nothing is lost either way.
-/

namespace NetLiteral

namespace Ipv4

/-- An address as one of the standard library. -/
def toStd (a : Address .ipv4) : Std.Net.IPv4Addr :=
  ⟨⟨a.octets.toArray, a.length_octets⟩⟩

def ofStd (a : Std.Net.IPv4Addr) : Address .ipv4 :=
  ⟨a.octets.toList, a.octets.length_toList⟩

theorem ofStd_toStd (a : Address .ipv4) : ofStd (toStd a) = a :=
  rfl

theorem toStd_ofStd (a : Std.Net.IPv4Addr) : toStd (ofStd a) = a :=
  rfl

end Ipv4

namespace Ipv6

/-- An address as one of the standard library. -/
def toStd (a : Address .ipv6) : Std.Net.IPv6Addr :=
  ⟨⟨(groups a.octets).toArray, by
    rw [List.size_toArray, length_groups, a.length_octets]; rfl⟩⟩

def ofStd (a : Std.Net.IPv6Addr) : Address .ipv6 :=
  ofGroups a.segments.toList a.segments.length_toList

theorem ofStd_toStd (a : Address .ipv6) : ofStd (toStd a) = a := by
  cases a with
  | mk bs h =>
    simp only [ofStd, toStd, ofGroups, Vector.toList_mk, Address.mk.injEq]
    exact octets_groups bs (by rw [h]; decide)

theorem toStd_ofStd (a : Std.Net.IPv6Addr) : toStd (ofStd a) = a := by
  have h : groups (octets a.segments.toList) = a.segments.toList := groups_octets _
  simp only [ofStd, toStd, ofGroups, h]
  rfl

end Ipv6

namespace IpAddress

/-- An address as one of the standard library. -/
def toStd : IpAddress → Std.Net.IPAddr
  | v4 a => .v4 (Ipv4.toStd a)
  | v6 a => .v6 (Ipv6.toStd a)

def ofStd : Std.Net.IPAddr → IpAddress
  | .v4 a => v4 (Ipv4.ofStd a)
  | .v6 a => v6 (Ipv6.ofStd a)

theorem ofStd_toStd (a : IpAddress) : ofStd (toStd a) = a := by
  cases a with
  | v4 a => exact congrArg v4 (Ipv4.ofStd_toStd a)
  | v6 a => exact congrArg v6 (Ipv6.ofStd_toStd a)

end IpAddress

namespace Endpoint

def toStdV4 (e : Endpoint .v4) : Std.Net.SocketAddressV4 :=
  ⟨Ipv4.toStd e.address, e.port⟩

def ofStdV4 (e : Std.Net.SocketAddressV4) : Endpoint .v4 :=
  ⟨Ipv4.ofStd e.addr, e.port⟩

def toStdV6 (e : Endpoint .v6) : Std.Net.SocketAddressV6 :=
  ⟨Ipv6.toStd e.address, e.port⟩

def ofStdV6 (e : Std.Net.SocketAddressV6) : Endpoint .v6 :=
  ⟨Ipv6.ofStd e.addr, e.port⟩

theorem ofStdV4_toStdV4 (e : Endpoint .v4) : ofStdV4 (toStdV4 e) = e := by
  cases e with
  | mk a port => exact congrArg (mk · port) (Ipv4.ofStd_toStd a)

theorem ofStdV6_toStdV6 (e : Endpoint .v6) : ofStdV6 (toStdV6 e) = e := by
  cases e with
  | mk a port => exact congrArg (mk · port) (Ipv6.ofStd_toStd a)

end Endpoint

end NetLiteral
