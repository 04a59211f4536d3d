import NetLiteral.ByteClass

/-!
# Numerals

Numbers in base ten and sixteen as bytes. Writers give the shortest numeral, with lowercase
letters; `ofDecimal` and `ofHex` give the value of any run of digits, leading zeros included.
-/

namespace NetLiteral.Numeral

def decimal (n : Nat) : Bytes :=
  (Nat.toDigits 10 n).map Char.toUInt8

/-- The shortest lowercase hexadecimal numeral of a number. -/
def hex (n : Nat) : Bytes :=
  (Nat.toDigits 16 n).map Char.toUInt8

/-- The two lowercase hexadecimal digits of an octet. -/
def hexPair (b : UInt8) : Bytes :=
  hex (b.toNat / 16) ++ hex (b.toNat % 16)

/-- The value of a decimal or hexadecimal digit. -/
def digitValue (b : UInt8) : Nat :=
  if Byte.isDigit b then b.toNat - 0x30
  else if b < 0x61 then b.toNat - 0x41 + 10
  else b.toNat - 0x61 + 10

/-- The value of a run of digits in base `base`, most significant first. -/
def ofDigits (base : Nat) (digits : Bytes) : Nat :=
  digits.foldl (fun n b => base * n + digitValue b) 0

def ofDecimal : Bytes → Nat :=
  ofDigits 10

def ofHex : Bytes → Nat :=
  ofDigits 16

/-- One more digit in a 32-bit accumulator, unless the result needs more bits. -/
def push32? (n : UInt32) (digit : UInt8) : Option UInt32 :=
  let m := 10 * n.toNat + digitValue digit
  if m < UInt32.size then some (UInt32.ofNat m) else none

/-- Accumulates decimal digits in 32 bits and stops at the first one that overflows. -/
def decimal32? (digits : Bytes) : Option UInt32 :=
  digits.foldlM push32? 0

/-- Reads a number below `2 ^ 64`: ASCII digits, with one plus sign allowed before them. -/
def word? (text : String) : Option Nat :=
  let bytes := Bytes.ofString text
  let digits := if bytes.head? = some 0x2B then bytes.tail else bytes
  if digits.isEmpty || !digits.all Byte.isDigit then none
  else
    let n := ofDecimal digits
    if n < UInt64.size then some n else none

end NetLiteral.Numeral
