import Mathlib.Data.Set.BooleanAlgebra
import Mathlib.Order.CompletePartialOrder
import NetLiteral.Proofs.Address.Value
import NetLiteral.Proofs.Octets.Prefix
import NetLiteral.Proofs.Route.Order

/-!
# Containment of routes

A route contains an address if the address lies in the same network, which is an interval of
addresses. Routes that share an address are nested: the one with the longer prefix is the smaller
one, and prefixes of one length leave a single route.
-/

namespace NetLiteral

variable {f : Family}

/-! ## Networks of addresses -/

namespace Address

theorem network_network_of_le {p q : PrefixLength f} (h : q.len ≤ p.len) (a : Address f) :
    (a.network p).network q = a.network q :=
  ext_octets (Octets.network_network_of_le h a.octets)

theorem network_broadcast (a : Address f) (p : PrefixLength f) :
    (a.broadcast p).network p = a.network p :=
  ext_octets (Octets.network_broadcast a.octets p.len)

theorem network_network_ne_network_broadcast {p q : PrefixLength f} (h : q.len < p.len)
    (a : Address f) : (a.network q).network p ≠ (a.broadcast q).network p := by
  intro heq
  have hp : p.len ≤ 8 * a.octets.length := by rw [a.length_octets]; exact p.len_le
  exact Octets.network_network_ne_network_broadcast h a.octets hp (congrArg octets heq)

end Address

/-! ## Addresses of a route -/

namespace Route

variable {r s : Route f} {a : Address f}

/-- The addresses that a route contains. -/
def addresses (r : Route f) : Set (Address f) :=
  {a | r.contains a = true}

/-- A route contains the addresses whose network it is. -/
theorem contains_iff : r.contains a = true ↔ a.network r.prefixLength = r.address := by
  have hlength : a.octets.length = r.address.octets.length := by
    rw [a.length_octets, r.address.length_octets]
  have hself := congrArg Address.octets r.network_eq
  rw [contains, Octets.sameNetwork_iff]
  constructor
  · intro h
    exact Address.ext_octets (h.2.trans hself)
  · intro h
    exact ⟨hlength, (congrArg Address.octets h).trans hself.symm⟩

/-- The route that clears the host bits of an address contains that address, and no other route of
its prefix length does. -/
theorem contains_iff_of_eq : r.contains a = true ↔ of a r.prefixLength = r := by
  rw [contains_iff]
  constructor
  · intro h
    exact ext_address h rfl
  · intro h
    exact congrArg address h

/-- Two addresses with prefix lengths give one route exactly if only host bits tell them apart. -/
theorem of_eq_of_iff {a b : Address f} {p q : PrefixLength f} :
    of a p = of b q ↔ p = q ∧ a.network p = b.network p := by
  constructor
  · intro h
    have hp : p = q := congrArg prefixLength h
    subst hp
    exact ⟨rfl, congrArg address h⟩
  · rintro ⟨rfl, h⟩
    exact ext_address h rfl

theorem eq_of_contains (hr : r.contains a = true) (hs : s.contains a = true)
    (h : r.prefixLength.len = s.prefixLength.len) : r = s := by
  rw [contains_iff_of_eq] at hr hs
  have hp : r.prefixLength = s.prefixLength := by
    cases hr' : r.prefixLength
    cases hs' : s.prefixLength
    simp_all
  rw [← hr, ← hs, hp]

/-- Of two routes that share an address, the one with the longer prefix lies in the other. -/
theorem addresses_subset (hr : r.contains a = true) (hs : s.contains a = true)
    (h : s.prefixLength.len ≤ r.prefixLength.len) : r.addresses ⊆ s.addresses := by
  intro b hb
  have hb' : b.network r.prefixLength = a.network r.prefixLength :=
    (contains_iff.mp hb).trans (contains_iff.mp hr).symm
  apply contains_iff.mpr
  calc
    b.network s.prefixLength = (b.network r.prefixLength).network s.prefixLength :=
      (Address.network_network_of_le h b).symm
    _ = (a.network r.prefixLength).network s.prefixLength := by rw [hb']
    _ = a.network s.prefixLength := Address.network_network_of_le h a
    _ = s.address := contains_iff.mp hs

theorem contains_address (r : Route f) : r.contains r.address = true :=
  contains_iff.mpr r.network_eq

theorem contains_broadcast (r : Route f) : r.contains r.broadcast = true :=
  contains_iff.mpr ((Address.network_broadcast _ _).trans r.network_eq)

/-- No route holds both ends of a network with a shorter prefix. -/
theorem not_contains_both_ends (h : s.prefixLength.len < r.prefixLength.len)
    (hlow : r.contains s.address = true) : ¬ r.contains s.broadcast = true := by
  intro hhigh
  apply Address.network_network_ne_network_broadcast h s.address
  rw [s.network_eq]
  exact (contains_iff.mp hlow).trans (contains_iff.mp hhigh).symm

theorem addresses_ssubset (hr : r.contains a = true) (hs : s.contains a = true)
    (h : s.prefixLength.len < r.prefixLength.len) : r.addresses ⊂ s.addresses := by
  refine ⟨addresses_subset hr hs (Nat.le_of_lt h), ?_⟩
  intro hle
  exact not_contains_both_ends h (hle s.contains_address) (hle s.contains_broadcast)

/-! ## Networks as intervals -/

theorem value_broadcast (r : Route f) :
    r.broadcast.value + 1 = r.address.value + 2 ^ r.prefixLength.hostBits := by
  have h := r.address.value_broadcast r.prefixLength
  rwa [r.network_eq] at h

/-- A network is the addresses from its own address to its broadcast address. -/
theorem contains_iff_between (r : Route f) :
    r.contains a = true ↔ r.address.value ≤ a.value ∧ a.value ≤ r.broadcast.value := by
  have hend := r.value_broadcast
  have hself := r.address.value_network r.prefixLength
  have ha := a.value_network r.prefixLength
  have hpos := Nat.two_pow_pos r.prefixLength.hostBits
  rw [r.network_eq] at hself
  generalize 2 ^ r.prefixLength.hostBits = size at hend hself ha hpos
  rw [contains_iff]
  constructor
  · intro h
    have hmod := Nat.mod_lt a.value hpos
    rw [h] at ha
    omega
  · rintro ⟨hle, hge⟩
    have hmul : size ∣ r.address.value := Nat.dvd_of_mod_eq_zero (by omega)
    obtain ⟨offset, hoffset⟩ := Nat.exists_eq_add_of_le hle
    have hmod : a.value % size = offset := by
      rw [hoffset, Nat.add_mod, Nat.mod_eq_zero_of_dvd hmul, Nat.zero_add, Nat.mod_mod]
      exact Nat.mod_eq_of_lt (by omega)
    exact Address.eq_of_value_eq (by omega)

/-- Comparing octets part by part, clearing host bits and comparing with both ends of a network are
one notion of lying in a network, for octets of any length and for the addresses of a route. -/
theorem containment_by_parts_masks_and_ends :
    (∀ (as bs : Bytes) (p : Nat),
      (Octets.sameNetwork as bs p = true ↔
        as.length = bs.length ∧ Octets.network as p = Octets.network bs p) ∧
      Octets.sameNetwork as bs p = Octets.agreeInParts as bs p) ∧
    ∀ (f : Family) (r : Route f) (a : Address f),
      (r.contains a = true ↔ r.address ≤ a ∧ a ≤ r.broadcast) ∧
      (r.contains a = true ↔ of a r.prefixLength = r) := by
  constructor
  · intro as bs p
    exact ⟨Octets.sameNetwork_iff as bs p, Octets.sameNetwork_eq_agreeInParts as bs p⟩
  · intro f r a
    refine ⟨?_, contains_iff_of_eq⟩
    rw [contains_iff_between, Address.le_iff_value_le, Address.le_iff_value_le]

end Route

end NetLiteral
