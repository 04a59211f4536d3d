import NetLiteral.Family
import NetLiteral.Number
import NetLiteral.TextForm

/-!
# Prefix lengths

How many leading bits of an address name its network: at most the width of the family.
-/

namespace NetLiteral

structure PrefixLength (f : Family) where
  len : Nat
  len_le : len ≤ f.bits
  deriving DecidableEq, Repr

/-- A prefix length was wider than the addresses of its family. -/
structure PrefixTooLong where
  len : Nat
  family : Family
  deriving DecidableEq, Repr

def PrefixTooLong.message (e : PrefixTooLong) : String :=
  s!"prefix length {e.len} exceeds {e.family.bits} for " ++ e.family.literal.name

namespace PrefixLength

variable {f : Family}

/-- The prefix length `n`, if addresses are that wide. -/
def ofNat (f : Family) (n : Nat) : Except PrefixTooLong (PrefixLength f) :=
  if h : n ≤ f.bits then .ok ⟨n, h⟩ else .error ⟨n, f⟩

def zero : PrefixLength f :=
  ⟨0, Nat.zero_le _⟩

def max : PrefixLength f :=
  ⟨f.bits, Nat.le_refl _⟩

def hostBits (p : PrefixLength f) : Nat :=
  f.bits - p.len

instance : Inhabited (PrefixLength f) :=
  ⟨zero⟩

instance : Ord (PrefixLength f) :=
  ⟨fun p q => compare p.len q.len⟩

theorem toNat_le_bits {n : UInt32} (h : n ≤ UInt32.ofNat f.bits) : n.toNat ≤ f.bits := by
  have h' : n.toNat ≤ (UInt32.ofNat f.bits).toNat := UInt32.le_iff_toNat_le.mp h
  cases f <;> exact h'

def parser : Parser (PrefixLength f) := do
  let n ← Number.unsigned .prefixLength 0 (UInt32.ofNat f.bits)
  return ⟨n.val.toNat, toNat_le_bits n.property.2⟩

instance : TextForm (PrefixLength f) where
  literal := .prefixLength
  parser := parser
  write p := Numeral.decimal p.len

/-- The text of a prefix length marked as one. -/
def describe (p : PrefixLength f) : String :=
  "PrefixLength(" ++ TextForm.text p ++ ")"

end PrefixLength

end NetLiteral
