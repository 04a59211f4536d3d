import NetLiteral.Proofs.Route.Containment

/-!
# Nesting of routes

Two routes have no address in common or one of them lies in the other, and no two routes contain the
same addresses. The order of routes goes from the inside of a nest outwards: a route comes before
every other route that it lies in.
-/

namespace NetLiteral.Route

variable {f : Family} {r s : Route f}

/-! ## One route in another -/

theorem disjoint_or_nested (r s : Route f) :
    Disjoint r.addresses s.addresses ∨ r.addresses ⊆ s.addresses ∨ s.addresses ⊆ r.addresses := by
  by_cases hdisjoint : Disjoint r.addresses s.addresses
  · exact .inl hdisjoint
  · obtain ⟨a, hr, hs⟩ := Set.not_disjoint_iff.mp hdisjoint
    rcases Nat.le_total s.prefixLength.len r.prefixLength.len with hle | hle
    · exact .inr (.inl (addresses_subset hr hs hle))
    · exact .inr (.inr (addresses_subset hs hr hle))

/-- A route in another one has no shorter prefix, as it would hold both ends of the other. -/
theorem prefixLength_le_of_subset (h : r.addresses ⊆ s.addresses) :
    s.prefixLength.len ≤ r.prefixLength.len := by
  by_contra hlt
  exact not_contains_both_ends (Nat.lt_of_not_le hlt) (h r.contains_address)
    (h r.contains_broadcast)

theorem addresses_subset_iff : r.addresses ⊆ s.addresses ↔
    s.prefixLength.len ≤ r.prefixLength.len ∧ s.contains r.address = true := by
  constructor
  · exact fun h => ⟨prefixLength_le_of_subset h, h r.contains_address⟩
  · rintro ⟨hle, hs⟩
    exact addresses_subset r.contains_address hs hle

theorem addresses_inj : r.addresses = s.addresses ↔ r = s := by
  constructor
  · intro h
    obtain ⟨hle, hs⟩ := addresses_subset_iff.mp h.subset
    have hge := prefixLength_le_of_subset h.superset
    exact eq_of_contains r.contains_address hs (Nat.le_antisymm hge hle)
  · exact congrArg addresses

/-- A route lies properly in another one exactly if it lies in it and has a longer prefix. -/
theorem addresses_ssubset_iff : r.addresses ⊂ s.addresses ↔
    s.prefixLength.len < r.prefixLength.len ∧ s.contains r.address = true := by
  constructor
  · intro h
    obtain ⟨hle, hs⟩ := addresses_subset_iff.mp h.subset
    refine ⟨Nat.lt_of_le_of_ne hle ?_, hs⟩
    intro hlen
    exact h.ne (addresses_inj.mpr (eq_of_contains r.contains_address hs hlen.symm))
  · rintro ⟨hlt, hs⟩
    exact addresses_ssubset r.contains_address hs hlt

/-! ## Order -/

theorem compare_eq_lt_of_ssubset (h : r.addresses ⊂ s.addresses) : compare r s = .lt :=
  compare_eq_lt_iff.mpr (.inl (addresses_ssubset_iff.mp h).1)

/-- Routes are a laminar family of sets of addresses, each set of one route only. They are totally
ordered, equal exactly if they compare as equal, and the order extends proper inclusion. -/
theorem laminar_and_ordered_outwards (f : Family) :
    (∀ r s : Route f, Disjoint r.addresses s.addresses ∨
      r.addresses ⊆ s.addresses ∨ s.addresses ⊆ r.addresses) ∧
    (∀ r s : Route f, r = s ↔ ∀ a, r.contains a = true ↔ s.contains a = true) ∧
    (∀ r s : Route f, compare r s = .eq ↔ r = s) ∧
    (∀ r s : Route f, compare s r = (compare r s).swap) ∧
    (∀ r s t : Route f, (compare r s).isLE → (compare s t).isLE → (compare r t).isLE) ∧
    ∀ r s : Route f, r.addresses ⊂ s.addresses → compare r s = .lt := by
  refine ⟨disjoint_or_nested, ?_, ?_, ?_, ?_, ?_⟩
  · intro r s
    rw [← addresses_inj]
    exact Set.ext_iff
  · exact fun r s => Std.LawfulEqOrd.compare_eq_iff_eq
  · exact fun r s => Std.OrientedOrd.eq_swap
  · exact fun r s t => Std.TransOrd.isLE_trans
  · exact fun r s => compare_eq_lt_of_ssubset

end NetLiteral.Route
