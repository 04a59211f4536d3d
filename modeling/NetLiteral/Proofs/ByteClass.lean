import NetLiteral.Family

/-!
# The bytes of literals

Every class holds only letters, digits, dots, colons and dashes. Any other byte ends each literal.
-/

namespace NetLiteral.Byte

/-- A byte that may stand in an address, a number or a name. -/
def isLiteral (b : UInt8) : Bool :=
  isLabelRegular b || b == dot || b == colon || b == dash

theorem isAscii_of_isLiteral {b : UInt8} (h : isLiteral b = true) : Bytes.isAscii b = true := by
  simp only [isLiteral, isLabelRegular, isDigit, dot, colon, dash, Bool.or_eq_true,
    Bool.and_eq_true, decide_eq_true_eq, beq_iff_eq, UInt8.le_iff_toNat_le, ← UInt8.toNat_inj,
    UInt8.reduceToNat] at h
  simp only [Bytes.isAscii, decide_eq_true_eq, UInt8.lt_iff_toNat_lt, UInt8.reduceToNat]
  omega

theorem isLabelRegular_of_isHexDigit {b : UInt8} (h : isHexDigit b = true) :
    isLabelRegular b = true := by
  simp only [isHexDigit, isLabelRegular, isDigit, Bool.or_eq_true, Bool.and_eq_true,
    decide_eq_true_eq, UInt8.le_iff_toNat_le, UInt8.reduceToNat] at h ⊢
  omega

theorem isLiteral_of_isDigit {b : UInt8} (h : isDigit b = true) : isLiteral b = true := by
  simp [isLiteral, isLabelRegular, h]

theorem isLiteral_of_isHexDigit {b : UInt8} (h : isHexDigit b = true) : isLiteral b = true := by
  simp [isLiteral, isLabelRegular_of_isHexDigit h]

theorem isLiteral_of_isLabel {b : UInt8} (h : isLabel b = true) : isLiteral b = true := by
  simp only [isLabel, isLabelSpecial, Bool.or_eq_true] at h
  rcases h with h | h <;> simp [isLiteral, h]

theorem isLiteral_of_isMember {f : Family} {b : UInt8} (h : f.isMember b = true) :
    isLiteral b = true := by
  cases f with
  | ipv4 =>
    rcases (Bool.or_eq_true _ _).mp h with h | h
    · exact isLiteral_of_isDigit h
    · simp [isLiteral, h]
  | ipv6 =>
    rcases (Bool.or_eq_true _ _).mp h with h | h
    · exact isLiteral_of_isHexDigit h
    · simp [isLiteral, h]
  | ethernet =>
    simp only [Family.isMember, isEthernet, Bool.or_eq_true] at h
    rcases h with (h | h) | h
    · exact isLiteral_of_isHexDigit h
    · simp [isLiteral, h]
    · simp [isLiteral, h]

theorem isAscii_of_isDigit {b : UInt8} (h : isDigit b = true) : Bytes.isAscii b = true :=
  isAscii_of_isLiteral (isLiteral_of_isDigit h)

theorem isAscii_of_isLabel {b : UInt8} (h : isLabel b = true) : Bytes.isAscii b = true :=
  isAscii_of_isLiteral (isLiteral_of_isLabel h)

theorem isAscii_of_isMember {f : Family} {b : UInt8} (h : f.isMember b = true) :
    Bytes.isAscii b = true :=
  isAscii_of_isLiteral (isLiteral_of_isMember h)

end NetLiteral.Byte
