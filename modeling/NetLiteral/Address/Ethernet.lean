import NetLiteral.Address.Basic

/-!
# Ethernet addresses as text

Six octets of two hexadecimal digits each, joined throughout by colons or throughout by dashes. The
canonical text is lowercase and has colons.
-/

namespace NetLiteral.Ethernet

def octet? (part : Bytes) : Option UInt8 :=
  if part.length = 2 ∧ part.all Byte.isHexDigit then some (UInt8.ofNat (Numeral.ofHex part))
  else none

def readJoined? (sep : UInt8) (text : Bytes) : Option (Address .ethernet) :=
  match (text.splitOn sep).mapM octet? with
  | some [a, b, c, d, e, f] => some ⟨[a, b, c, d, e, f], rfl⟩
  | _ => none

/-- Reads an address from the whole of a text. The byte after the first two names the separator. -/
def read? (text : Bytes) : Option (Address .ethernet) :=
  match text[2]? with
  | some sep => if sep = Byte.colon ∨ sep = Byte.dash then readJoined? sep text else none
  | none => none

def write (a : Address .ethernet) : Bytes :=
  Bytes.join Byte.colon (a.octets.map Numeral.hexPair)

end NetLiteral.Ethernet
