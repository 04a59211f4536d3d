import NetLiteral.Address.Basic
import NetLiteral.Proofs.Bytes.Join

/-!
# Addresses and their octets

Addresses are equal if their octets are, they are in a total order in which only equal addresses
compare as equal, and they can be read octet by octet.
-/

namespace NetLiteral.Address

variable {f : Family}

theorem ext_octets {a b : Address f} (h : a.octets = b.octets) : a = b := by
  cases a
  cases b
  cases h
  rfl

instance : Std.TransOrd (Address f) :=
  inferInstanceAs (Std.TransCmp (compareOn (Address.octets (f := f))))

instance : Std.LawfulEqOrd (Address f) where
  eq_of_compare {a b} h := by
    have hoctets : compare a.octets b.octets = .eq := h
    exact ext_octets (Std.LawfulEqOrd.eq_of_compare hoctets)

/-- A reader that has all the octets of an address read at once can read them one by one. -/
theorem readParts?_eq_map_octets {octet? : Bytes → Option UInt8} {parts : List Bytes}
    {r : Option (Address f)} (hr : ∀ a, r = some a ↔ parts.mapM octet? = some a.octets) :
    Bytes.readParts? octet? f.width parts = r.map octets := by
  apply Option.ext
  intro os
  rw [Bytes.readParts?_eq_some_iff, Option.map_eq_some_iff]
  constructor
  · rintro ⟨hparts, hlength⟩
    exact ⟨⟨os, hlength⟩, (hr _).mpr hparts, rfl⟩
  · rintro ⟨a, ha, rfl⟩
    exact ⟨(hr a).mp ha, a.length_octets⟩

end NetLiteral.Address
