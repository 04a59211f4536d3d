import NetLiteral.Address.Basic

/-!
# IPv4 addresses as text

Four decimal octets joined by dots. No octet has leading zeros, so each address has one spelling.
-/

namespace NetLiteral.Ipv4

def octet? (part : Bytes) : Option UInt8 :=
  if part.isEmpty || 3 < part.length || !part.all Byte.isDigit then none
  else if 1 < part.length && part.head? == some 0x30 then none
  else if 255 < Numeral.ofDecimal part then none
  else some (UInt8.ofNat (Numeral.ofDecimal part))

/-- Reads an address from the whole of a text. -/
def read? (text : Bytes) : Option (Address .ipv4) :=
  match (text.splitOn Byte.dot).mapM octet? with
  | some [a, b, c, d] => some ⟨[a, b, c, d], rfl⟩
  | _ => none

def write (a : Address .ipv4) : Bytes :=
  Bytes.join Byte.dot (a.octets.map fun b => Numeral.decimal b.toNat)

end NetLiteral.Ipv4
