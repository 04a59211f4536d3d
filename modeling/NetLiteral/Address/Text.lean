import NetLiteral.Address.Ethernet
import NetLiteral.Address.Ipv4
import NetLiteral.Address.Ipv6

/-!
# Addresses as text

The text form of an address of any family. The parser first consumes the longest run of the
family's bytes and then converts all of it, so an address that is malformed anywhere is given back
as a whole.
-/

namespace NetLiteral.Address

/-- Reads an address from the whole of a text. -/
def read? : (f : Family) → Bytes → Option (Address f)
  | .ipv4 => Ipv4.read?
  | .ipv6 => Ipv6.read?
  | .ethernet => Ethernet.read?

def write : {f : Family} → Address f → Bytes
  | .ipv4 => Ipv4.write
  | .ipv6 => Ipv6.write
  | .ethernet => Ethernet.write

variable {f : Family}

def parser : Parser (Address f) :=
  .attempt do
    let start ← Parser.position
    let text ← Parser.takeWhile f.isMember
    if text.isEmpty then Parser.fail ⟨f.literal, start, .empty⟩
    else
      match read? f text with
      | some a => return a
      | none => Parser.fail ⟨f.literal, start, .malformed⟩

instance : TextForm (Address f) where
  literal := f.literal
  parser := parser
  write := write

def describe (a : Address f) : String :=
  "Address(" ++ TextForm.text a ++ ")"

end NetLiteral.Address
