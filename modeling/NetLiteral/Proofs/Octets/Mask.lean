import NetLiteral.Proofs.Octets.Prefix
import NetLiteral.Proofs.Octets.Value

/-!
# Masks as arithmetic

A mask keeps the octets before the one in which the prefix ends, splits that one, and fills all
octets after it. On the numbers that octets stand for, this is rounding to the size of the network,
at every width and for every prefix.
-/

namespace NetLiteral.Octets

/-! ## Octet by octet -/

/-- What becomes of the octet at an offset: it stays before the end of the prefix, is split where
the prefix ends, and is replaced after that. -/
def maskAt (split : UInt8 → UInt8 → UInt8) (fill : UInt8) (p i : Nat) (b : UInt8) : UInt8 :=
  if i < p / 8 then b else if i = p / 8 then split b (keepMask (p % 8)) else fill

section

variable {split : UInt8 → UInt8 → UInt8} {fill : UInt8} {p : Nat}

theorem mapIdx_maskAt_of_le (h : 8 ≤ p) (b : UInt8) (bs : Bytes) :
    (b :: bs).mapIdx (maskAt split fill p) = b :: bs.mapIdx (maskAt split fill (p - 8)) := by
  have hdiv : p / 8 = (p - 8) / 8 + 1 := by omega
  have hmod : p % 8 = (p - 8) % 8 := by omega
  -- Offsets in the rest are smaller by one octet, as is the prefix.
  have hrest : (fun i => maskAt split fill p (i + 1)) = maskAt split fill (p - 8) := by
    funext i b
    simp only [maskAt, hdiv, hmod, Nat.add_lt_add_iff_right, Nat.add_right_cancel_iff]
  have hfirst : maskAt split fill p 0 b = b := if_pos (by omega)
  rw [List.mapIdx_cons, hrest, hfirst]

theorem mapIdx_maskAt_of_lt (h : p < 8) (b : UInt8) (bs : Bytes) :
    (b :: bs).mapIdx (maskAt split fill p) = split b (keepMask p) :: bs.map fun _ => fill := by
  have hdiv : p / 8 = 0 := by omega
  have hmod : p % 8 = p := by omega
  have hrest : (fun i => maskAt split fill p (i + 1)) = fun _ _ => fill := by
    funext i b
    simp [maskAt, hdiv]
  have hfirst : maskAt split fill p 0 b = split b (keepMask p) := by simp [maskAt, hdiv, hmod]
  rw [List.mapIdx_cons, hrest, hfirst]
  simp [List.mapIdx_eq_zipIdx_map, List.map_const']

end

theorem network_eq_mapIdx (bs : Bytes) (p : Nat) :
    network bs p = bs.mapIdx (maskAt (fun b mask => b &&& mask) 0 p) := by
  induction bs generalizing p with
  | nil => rfl
  | cons b bs ih =>
    rw [network]
    split
    next h => rw [mapIdx_maskAt_of_le h, ih]
    next h => rw [mapIdx_maskAt_of_lt (Nat.lt_of_not_le h)]

theorem broadcast_eq_mapIdx (bs : Bytes) (p : Nat) :
    broadcast bs p = bs.mapIdx (maskAt (fun b mask => b ||| ~~~mask) 0xFF p) := by
  induction bs generalizing p with
  | nil => rfl
  | cons b bs ih =>
    rw [broadcast]
    split
    next h => rw [mapIdx_maskAt_of_le h, ih]
    next h => rw [mapIdx_maskAt_of_lt (Nat.lt_of_not_le h)]

/-! ## Prefixes that leave no host bits -/

theorem network_eq_self {bs : Bytes} {p : Nat} (h : 8 * bs.length ≤ p) : network bs p = bs := by
  induction bs generalizing p with
  | nil => rfl
  | cons b bs ih =>
    rw [List.length_cons] at h
    rw [network, if_pos (by omega), ih (by omega)]

theorem broadcast_eq_self {bs : Bytes} {p : Nat} (h : 8 * bs.length ≤ p) :
    broadcast bs p = bs := by
  induction bs generalizing p with
  | nil => rfl
  | cons b bs ih =>
    rw [List.length_cons] at h
    rw [broadcast, if_pos (by omega), ih (by omega)]

/-! ## Rounding -/

variable {bs : Bytes} {p : Nat}

theorem value_network_eq_sub (hp : p ≤ 8 * bs.length) :
    value (network bs p) = value bs - value bs % 2 ^ (8 * bs.length - p) :=
  Nat.eq_sub_of_add_eq (value_network hp)

theorem value_broadcast_eq_add (hp : p ≤ 8 * bs.length) :
    value (broadcast bs p) = value (network bs p) + (2 ^ (8 * bs.length - p) - 1) := by
  have hsize := Nat.two_pow_pos (8 * bs.length - p)
  have hnext := value_broadcast hp
  omega

/-- Clearing host bits does not change which network they are set in. -/
theorem broadcast_network (bs : Bytes) (p : Nat) : broadcast (network bs p) p = broadcast bs p := by
  have hlen := length_network bs p
  by_cases hp : p ≤ 8 * bs.length
  · apply eq_of_value_eq (by rw [length_broadcast, length_broadcast, hlen])
    rw [value_broadcast_eq_add (by rwa [hlen]), network_network, hlen, value_broadcast_eq_add hp]
  · rw [network_eq_self (by omega)]

theorem broadcast_broadcast (bs : Bytes) (p : Nat) :
    broadcast (broadcast bs p) p = broadcast bs p := by
  have hlen := length_broadcast bs p
  by_cases hp : p ≤ 8 * bs.length
  · apply eq_of_value_eq (length_broadcast _ _)
    rw [value_broadcast_eq_add (by rwa [hlen]), network_broadcast, hlen,
      value_broadcast_eq_add hp]
  · exact broadcast_eq_self (by omega)

/-- At every width, clearing the host bits rounds a number down to a multiple of the size of its
network, and setting them goes to the last number before the next multiple. A prefix longer than the
octets leaves them as they are. -/
theorem masks_are_arithmetic (bs : Bytes) (p : Nat) :
    (p ≤ 8 * bs.length →
      value (network bs p) = value bs - value bs % 2 ^ (8 * bs.length - p) ∧
      value (broadcast bs p) =
        value bs - value bs % 2 ^ (8 * bs.length - p) + (2 ^ (8 * bs.length - p) - 1)) ∧
    (8 * bs.length < p → network bs p = bs ∧ broadcast bs p = bs) ∧
    (network bs p).length = bs.length ∧ (broadcast bs p).length = bs.length ∧
    network bs p = bs.mapIdx (maskAt (fun b mask => b &&& mask) 0 p) ∧
    broadcast bs p = bs.mapIdx (maskAt (fun b mask => b ||| ~~~mask) 0xFF p) ∧
    network (broadcast bs p) p = network bs p ∧
    network (network bs p) p = network bs p ∧
    broadcast (broadcast bs p) p = broadcast bs p := by
  refine ⟨?_, ?_, length_network bs p, length_broadcast bs p, network_eq_mapIdx bs p,
    broadcast_eq_mapIdx bs p, network_broadcast bs p, network_network bs p,
    broadcast_broadcast bs p⟩
  · intro hp
    rw [value_broadcast_eq_add hp, value_network_eq_sub hp]
    exact ⟨rfl, rfl⟩
  · intro hp
    exact ⟨network_eq_self (by omega), broadcast_eq_self (by omega)⟩

end NetLiteral.Octets
