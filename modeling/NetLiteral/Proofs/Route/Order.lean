import NetLiteral.Proofs.Address.Octets
import NetLiteral.Route

/-!
# The order of routes

Routes are in a total order in which only equal routes compare as equal. A table of routes can
therefore find a route by comparing alone.
-/

namespace NetLiteral

variable {f : Family}

namespace Route

theorem ext_address {r s : Route f} (ha : r.address = s.address)
    (hp : r.prefixLength.len = s.prefixLength.len) : r = s := by
  obtain ⟨a, ⟨p, hpa⟩, hr⟩ := r
  obtain ⟨b, ⟨q, hqb⟩, hs⟩ := s
  cases ha
  cases hp
  rfl

/-- Where two routes differ, the one with the longer prefix comes first; among prefixes of one
length, the one with the smaller address. -/
theorem compare_eq_then (r s : Route f) :
    compare r s = (compare s.prefixLength.len r.prefixLength.len).then
      (compare r.address s.address) :=
  rfl

instance : Std.TransCmp fun r s : Route f => compare s.prefixLength.len r.prefixLength.len :=
  inferInstanceAs (Std.TransCmp fun r s : Route f => compareOn (·.prefixLength.len) s r)

instance : Std.TransOrd (Route f) :=
  inferInstanceAs (Std.TransCmp (compareLex
    (fun r s : Route f => compare s.prefixLength.len r.prefixLength.len)
    (compareOn Route.address)))

instance : Std.LawfulEqOrd (Route f) where
  eq_of_compare {r s} h := by
    rw [compare_eq_then, Ordering.then_eq_eq] at h
    exact ext_address (Std.LawfulEqOrd.eq_of_compare h.2) (Std.LawfulEqOrd.eq_of_compare h.1).symm

theorem compare_eq_lt_iff {r s : Route f} :
    compare r s = .lt ↔ s.prefixLength.len < r.prefixLength.len ∨
      s.prefixLength.len = r.prefixLength.len ∧ compare r.address s.address = .lt := by
  rw [compare_eq_then, Ordering.then_eq_lt, Nat.compare_eq_lt, Nat.compare_eq_eq]

end Route

end NetLiteral
