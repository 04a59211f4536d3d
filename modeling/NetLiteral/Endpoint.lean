import NetLiteral.Address.Text

/-!
# Endpoints

An IP address and a port: `9.0.0.1:12000` or `[2001:db8::1]:443`.
-/

namespace NetLiteral

structure Endpoint (v : IpVersion) where
  address : Address v.family
  port : UInt16
  deriving DecidableEq, Repr

namespace Endpoint

variable {v : IpVersion}

/-- Endpoints are ordered by address, then by port. -/
instance : Ord (Endpoint v) :=
  ⟨compareLex (compareOn address) (compareOn port)⟩

/-- Reads the address of an endpoint, in brackets where its version asks for them. -/
def addressPart : Parser (Address v.family) :=
  if v.isBracketed then do
    Parser.expect Byte.openBracket .endpoint
    let a ← Address.parser
    Parser.expect Byte.closeBracket .endpoint
    return a
  else Address.parser

/-- The record of an endpoint that could not be read. -/
def rejected (v : IpVersion) (start : Nat) (e : Failure) : Log.Record :=
  ⟨.debug, none, s!"no {v.family.literal.name} endpoint at offset {start}: {e.message}"⟩

/-- Reads an endpoint, and gives all of it back if any part fails. -/
def parser : Parser (Endpoint v) := do
  let start ← Parser.position
  let parts : Parser (Endpoint v) := do
    let address ← addressPart
    Parser.expect Byte.colon .endpoint
    let port ← Number.port
    return ⟨address, port⟩
  parts.attempt.onFailure (rejected v start)

def write (e : Endpoint v) : Bytes :=
  let address := e.address.write
  let host := if v.isBracketed then Byte.openBracket :: address ++ [Byte.closeBracket] else address
  host ++ Byte.colon :: Numeral.decimal e.port.toNat

instance : TextForm (Endpoint v) where
  literal := .endpoint
  parser := parser
  write := write

def describe (e : Endpoint v) : String :=
  "Endpoint(" ++ TextForm.text e ++ ")"

end Endpoint

end NetLiteral
