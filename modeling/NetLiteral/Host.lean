import NetLiteral.Address.Text
import NetLiteral.Hostname

/-!
# Hosts by address or by name

An IP address of either version, and a host given by such an address or by name. The alternatives
are tried in a fixed order from the same place, and when all of them fail the failure that got
furthest is reported.
-/

namespace NetLiteral

structure Families where
  v4 : Bool
  v6 : Bool
  name : Bool
  deriving DecidableEq, Repr

namespace Families

def ip : Families :=
  ⟨true, true, false⟩

def all : Families :=
  ⟨true, true, true⟩

end Families

inductive IpAddress
  | v4 (a : Address .ipv4)
  | v6 (a : Address .ipv6)
  deriving DecidableEq, Repr

namespace IpAddress

/-- IPv4 addresses come before IPv6 addresses. -/
def order : IpAddress → IpAddress → Ordering
  | v4 a, v4 b => compare a b
  | v4 _, v6 _ => .lt
  | v6 _, v4 _ => .gt
  | v6 a, v6 b => compare a b

instance : Ord IpAddress :=
  ⟨order⟩

def isIpv4 : IpAddress → Bool
  | v4 _ => true
  | v6 _ => false

/-- Reads an address of the chosen versions, IPv4 first. -/
def parseWith (m : Families) : Parser IpAddress := do
  let start ← Parser.position
  let asV4 := if m.v4 then [v4 <$> Address.parser] else []
  let asV6 := if m.v6 then [v6 <$> Address.parser] else []
  Parser.choice ⟨.host, start, .empty⟩ (asV4 ++ asV6)

def write : IpAddress → Bytes
  | v4 a => a.write
  | v6 a => a.write

instance : TextForm IpAddress where
  literal := .host
  parser := parseWith .ip
  write := write

/-- The text of an address marked with its version. -/
def describe : IpAddress → String
  | v4 a => "V4(" ++ a.describe ++ ")"
  | v6 a => "V6(" ++ a.describe ++ ")"

end IpAddress

inductive Host
  | address (a : IpAddress)
  | name (h : Hostname)
  deriving DecidableEq, Repr

namespace Host

def order : Host → Host → Ordering
  | address a, address b => compare a b
  | address _, name _ => .lt
  | name _, address _ => .gt
  | name g, name h => compare g h

instance : Ord Host :=
  ⟨order⟩

/-- Reads a host of the chosen kinds, addresses first. -/
def parseWith (m : Families) : Parser Host := do
  let start ← Parser.position
  let byAddress := if m.v4 || m.v6 then [address <$> IpAddress.parseWith m] else []
  let byName := if m.name then [name <$> Hostname.parser] else []
  Parser.choice ⟨.host, start, .empty⟩ (byAddress ++ byName)

def write : Host → Bytes
  | address a => a.write
  | name h => h.write

instance : TextForm Host where
  literal := .host
  parser := parseWith .all
  write := write

def describe : Host → String
  | address a => "Address(" ++ a.describe ++ ")"
  | name h => "Name(" ++ h.describe ++ ")"

end Host

end NetLiteral
