import NetLiteral.Bytes

/-!
# Byte classes

Each kind of literal is read from a run of bytes of one class. Classes are ranges of ASCII codes,
so no byte of a longer UTF-8 sequence belongs to any of them.
-/

namespace NetLiteral

namespace Byte

def isDigit (b : UInt8) : Bool :=
  0x30 ≤ b && b ≤ 0x39

def isHexDigit (b : UInt8) : Bool :=
  isDigit b || (0x41 ≤ b && b ≤ 0x46) || (0x61 ≤ b && b ≤ 0x66)

def isIpv4 (b : UInt8) : Bool :=
  isDigit b || b == dot

def isIpv6 (b : UInt8) : Bool :=
  isHexDigit b || b == colon

/-- A byte that may stand in an Ethernet address. -/
def isEthernet (b : UInt8) : Bool :=
  isHexDigit b || b == colon || b == dash

/-- A byte that may begin and end a hostname label: a letter or a digit. -/
def isLabelRegular (b : UInt8) : Bool :=
  isDigit b || (0x41 ≤ b && b ≤ 0x5A) || (0x61 ≤ b && b ≤ 0x7A)

/-- A byte that may only stand inside a hostname label. -/
def isLabelSpecial (b : UInt8) : Bool :=
  b == dash

/-- A byte that may stand in a hostname label. -/
def isLabel (b : UInt8) : Bool :=
  isLabelRegular b || isLabelSpecial b

end Byte

/-- The named classes, in the order in which a byte's classes are listed. -/
inductive ByteClass
  | digit
  | hexDigit
  | ipv4
  | ipv6
  | ethernet
  | labelRegular
  | labelSpecial
  | label
  deriving DecidableEq, Repr

namespace ByteClass

def holds : ByteClass → UInt8 → Bool
  | digit => Byte.isDigit
  | hexDigit => Byte.isHexDigit
  | ipv4 => Byte.isIpv4
  | ipv6 => Byte.isIpv6
  | ethernet => Byte.isEthernet
  | labelRegular => Byte.isLabelRegular
  | labelSpecial => Byte.isLabelSpecial
  | label => Byte.isLabel

def all : List ByteClass :=
  [digit, hexDigit, ipv4, ipv6, ethernet, labelRegular, labelSpecial, label]

def of (b : UInt8) : List ByteClass :=
  all.filter (·.holds b)

end ByteClass

end NetLiteral
