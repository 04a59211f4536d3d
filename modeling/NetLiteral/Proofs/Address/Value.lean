import NetLiteral.Proofs.Address.Octets
import NetLiteral.Proofs.Octets.Value

/-!
# Addresses as numbers

The addresses of a family are the numbers of as many bits as it is wide, in the order of numbers.
The successor of an address is the next number, and a network is the numbers with one quotient by
its size.
-/

namespace NetLiteral.Address

variable {f : Family} {a b : Address f}

theorem value_lt (a : Address f) : a.value < 2 ^ f.bits := by
  have h := Octets.value_lt a.octets
  rwa [a.length_octets] at h

theorem eq_of_value_eq (h : a.value = b.value) : a = b :=
  ext_octets (Octets.eq_of_value_eq (a.length_octets.trans b.length_octets.symm) h)

theorem value_inj : a.value = b.value ↔ a = b :=
  ⟨eq_of_value_eq, congrArg value⟩

theorem compare_eq_compare_value (a b : Address f) :
    compare a b = compare a.value b.value :=
  Octets.compare_eq_compare_value (a.length_octets.trans b.length_octets.symm)

theorem compare_isLT_iff : (compare a b).isLT = true ↔ a.value < b.value := by
  rw [compare_eq_compare_value, Ordering.isLT_iff_eq_lt, Nat.compare_eq_lt]

theorem le_iff_value_le : a ≤ b ↔ a.value ≤ b.value := by
  change (compare a b).isLE = true ↔ a.value ≤ b.value
  rw [compare_eq_compare_value, Nat.isLE_compare]

theorem lt_iff_value_lt : a < b ↔ a.value < b.value := by
  change compare a b = .lt ↔ a.value < b.value
  rw [compare_eq_compare_value, Nat.compare_eq_lt]

/-! ## Successors -/

theorem value_successor? (h : a.successor? = some b) : b.value = a.value + 1 := by
  rw [successor?] at h
  split at h
  next hfits =>
    cases h
    exact Octets.value_increment_of_fits hfits
  next => cases h

/-- Every address but the greatest has a successor. -/
theorem exists_successor? (h : a.value + 1 < 2 ^ f.bits) : ∃ b, a.successor? = some b := by
  have hfits : (Octets.increment a.octets).1 = true := by
    rw [Octets.increment_fits_iff, a.length_octets]
    exact h
  rw [successor?, if_pos hfits]
  exact ⟨_, rfl⟩

theorem le_of_successor?_eq_none (h : a.successor? = none) : 2 ^ f.bits ≤ a.value + 1 := by
  by_contra hlt
  obtain ⟨b, hb⟩ := exists_successor? (Nat.lt_of_not_le hlt)
  rw [h] at hb
  cases hb

/-- Only the greatest address has no successor. -/
theorem successor?_eq_none_iff : a.successor? = none ↔ ∀ b : Address f, b ≤ a := by
  constructor
  · intro h b
    have hmax := le_of_successor?_eq_none h
    have hb := b.value_lt
    rw [le_iff_value_le]
    omega
  · intro h
    cases hnext : a.successor? with
    | none => rfl
    | some b =>
      have hle := le_iff_value_le.mp (h b)
      rw [value_successor? hnext] at hle
      exact absurd hle (Nat.not_succ_le_self a.value)

/-- A successor is the least of the greater addresses. -/
theorem successor?_eq_some_iff : a.successor? = some b ↔ a < b ∧ ∀ c : Address f, a < c → b ≤ c := by
  simp only [lt_iff_value_lt, le_iff_value_le]
  constructor
  · intro h
    rw [value_successor? h]
    exact ⟨Nat.lt_succ_self _, fun c hc => hc⟩
  · rintro ⟨hlt, hleast⟩
    have hroom : a.value + 1 < 2 ^ f.bits := Nat.lt_of_le_of_lt hlt b.value_lt
    obtain ⟨c, hc⟩ := exists_successor? hroom
    have hvalue := value_successor? hc
    have hle : b.value ≤ c.value := hleast c (by omega)
    rw [hc, eq_of_value_eq (a := c) (b := b) (by omega)]

/-! ## Networks -/

theorem value_network (a : Address f) (p : PrefixLength f) :
    (a.network p).value + a.value % 2 ^ p.hostBits = a.value := by
  have hp : p.len ≤ 8 * a.octets.length := by rw [a.length_octets]; exact p.len_le
  have h := Octets.value_network hp
  rwa [a.length_octets] at h

theorem value_network_eq_sub (a : Address f) (p : PrefixLength f) :
    (a.network p).value = a.value - a.value % 2 ^ p.hostBits :=
  Nat.eq_sub_of_add_eq (a.value_network p)

theorem value_broadcast (a : Address f) (p : PrefixLength f) :
    (a.broadcast p).value + 1 = (a.network p).value + 2 ^ p.hostBits := by
  have hp : p.len ≤ 8 * a.octets.length := by rw [a.length_octets]; exact p.len_le
  have h := Octets.value_broadcast hp
  rwa [a.length_octets] at h

/-! ## Counting -/

/-- Octets of every length are counted by numbers: one more than what they stand for, as far as their
length holds it, is what the next octets stand for, and walking over them only while there is a carry
finds these. Addresses are in the order of their numbers, and the successor of an address is the
least address after it, which only the greatest one lacks. -/
theorem counts_by_numbers :
    (∀ bs os : Bytes, (Octets.increment bs).2 = os ↔
      os.length = bs.length ∧
        Octets.value os = (Octets.value bs + 1) % 2 ^ (8 * bs.length)) ∧
    (∀ bs, (Octets.increment bs).1 = true ↔ Octets.value bs + 1 < 2 ^ (8 * bs.length)) ∧
    (∀ bs, Octets.increment bs =
      ((Octets.carry bs.reverse).1, (Octets.carry bs.reverse).2.reverse)) ∧
    (∀ f (a b : Address f), compare a b = compare a.value b.value ∧
      (a < b ↔ a.value < b.value) ∧ (a ≤ b ↔ a.value ≤ b.value) ∧ (a = b ↔ a.value = b.value)) ∧
    ∀ f (a : Address f), (a.successor? = none ↔ ∀ b : Address f, b ≤ a) ∧
      ∀ b, a.successor? = some b ↔ a < b ∧ ∀ c : Address f, a < c → b ≤ c := by
  refine ⟨?_, Octets.increment_fits_iff, Octets.increment_eq_carry, ?_, ?_⟩
  · intro bs os
    have hlength := Octets.length_increment bs
    have hvalue := Octets.value_increment_eq_mod bs
    constructor
    · rintro rfl
      exact ⟨hlength, hvalue⟩
    · rintro ⟨hos, hsame⟩
      exact Octets.eq_of_value_eq (hlength.trans hos.symm) (hvalue.trans hsame.symm)
  · intro f a b
    exact ⟨compare_eq_compare_value a b, lt_iff_value_lt, le_iff_value_le, value_inj.symm⟩
  · intro f a
    exact ⟨successor?_eq_none_iff, fun b => successor?_eq_some_iff⟩

end NetLiteral.Address
