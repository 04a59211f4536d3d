import NetLiteral.Numeral
import NetLiteral.Parser

/-!
# Bounded integers

A bounded integer is the longest run of decimal digits at the cursor, leading zeros allowed. The
digits are accumulated in 32 bits, and an accumulator that overflows counts as out of range.
-/

namespace NetLiteral.Number

def unsigned (literal : Literal) (lo hi : UInt32) : Parser {n : UInt32 // lo ≤ n ∧ n ≤ hi} :=
  .attempt do
    let start ← Parser.position
    let digits ← Parser.takeWhile Byte.isDigit
    if digits.isEmpty then Parser.fail ⟨literal, start, .empty⟩
    else
      match Numeral.decimal32? digits with
      | some n =>
        if h : lo ≤ n ∧ n ≤ hi then return ⟨n, h⟩
        else Parser.fail ⟨literal, start, .outOfRange⟩
      | none => Parser.fail ⟨literal, start, .outOfRange⟩

def maxPort : UInt32 :=
  65535

def port : Parser UInt16 := do
  let n ← unsigned .port 0 maxPort
  return n.val.toUInt16

end NetLiteral.Number
