/-!
# Text as bytes

A text is read as the bytes of its UTF-8 encoding, and every offset counts those bytes. The values
of this library are written in ASCII, so their bytes and their characters are the same list.
-/

namespace NetLiteral

/-- The bytes of a text in UTF-8, or the big-endian octets of an address. -/
abbrev Bytes := List UInt8

namespace Bytes

def ofString (s : String) : Bytes :=
  s.toUTF8.data.toList

/-- The text in which every byte stands for the character with that code. -/
def toText (bs : Bytes) : String :=
  String.ofList (bs.map Char.ofUInt8)

/-- The text that the bytes encode, if they are well-formed UTF-8. -/
def decode? (bs : Bytes) : Option String :=
  String.fromUTF8? ⟨bs.toArray⟩

/-- Whether a byte encodes a character on its own. -/
def isAscii (b : UInt8) : Bool :=
  b < 0x80

/-- Writes `parts` one after another with `sep` between them. -/
def join (sep : UInt8) (parts : List Bytes) : Bytes :=
  [sep].intercalate parts

end Bytes

/-! ## Punctuation of the literals -/

namespace Byte

abbrev dash : UInt8 := 0x2D
abbrev dot : UInt8 := 0x2E
abbrev slash : UInt8 := 0x2F
abbrev colon : UInt8 := 0x3A
abbrev openBracket : UInt8 := 0x5B
abbrev closeBracket : UInt8 := 0x5D

end Byte

end NetLiteral
