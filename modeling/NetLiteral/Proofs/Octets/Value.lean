import Mathlib.Algebra.Group.Nat.Defs
import Mathlib.Data.List.Basic
import NetLiteral.Octets

/-!
# Octets as numbers

Octets of one length stand for the numbers below a power of two: no two of them stand for one
number, and their order is that of the numbers. Clearing the host bits rounds down to a multiple of
the size of the network, setting them goes to the last number before the next multiple, and
incrementing adds one where there is room.
-/

namespace NetLiteral.Octets

/-! ## Numbers of a length -/

theorem two_pow_length_cons (b : UInt8) (bs : Bytes) :
    2 ^ (8 * (b :: bs).length) = 2 ^ (8 * bs.length) * 256 := by
  rw [List.length_cons, Nat.mul_succ, Nat.pow_add]

theorem foldl_eq_add_value (bs : Bytes) (n : Nat) :
    bs.foldl (fun n b => 256 * n + b.toNat) n = 2 ^ (8 * bs.length) * n + value bs := by
  induction bs generalizing n with
  | nil => simp [value]
  | cons b bs ih =>
    rw [value, List.foldl_cons, List.foldl_cons, ih, Nat.mul_zero, Nat.zero_add, ih b.toNat,
      two_pow_length_cons, Nat.mul_add, Nat.mul_assoc, Nat.add_assoc]

@[simp] theorem value_nil : value [] = 0 :=
  rfl

theorem value_cons (b : UInt8) (bs : Bytes) :
    value (b :: bs) = 2 ^ (8 * bs.length) * b.toNat + value bs := by
  rw [value, List.foldl_cons, Nat.mul_zero, Nat.zero_add, foldl_eq_add_value]

theorem value_lt (bs : Bytes) : value bs < 2 ^ (8 * bs.length) := by
  induction bs with
  | nil => simp
  | cons b bs ih =>
    have hb : b.toNat + 1 ≤ 256 := b.toNat_lt
    calc
      value (b :: bs) < 2 ^ (8 * bs.length) * (b.toNat + 1) := by
        rw [value_cons, Nat.mul_succ]
        exact Nat.add_lt_add_left ih _
      _ ≤ 2 ^ (8 * (b :: bs).length) := by
        rw [two_pow_length_cons]
        exact Nat.mul_le_mul_left _ hb

theorem value_replicate_zero (n : Nat) : value (List.replicate n 0) = 0 := by
  induction n with
  | zero => rfl
  | succ n ih =>
    rw [List.replicate_succ, value_cons, ih]
    rfl

theorem value_replicate_max (n : Nat) : value (List.replicate n 0xFF) + 1 = 2 ^ (8 * n) := by
  induction n with
  | zero => rfl
  | succ n ih =>
    have hmax : (0xFF : UInt8).toNat = 255 := rfl
    rw [List.replicate_succ, value_cons, List.length_replicate, Nat.mul_succ, Nat.pow_add, hmax]
    omega

/-! ## Order -/

/-- The first octet in which two numbers differ decides. -/
theorem compare_mul_add {m a b c d : Nat} (hc : c < m) (hd : d < m) :
    compare (m * a + c) (m * b + d) = (compare a b).then (compare c d) := by
  rcases Nat.lt_trichotomy a b with hlt | heq | hgt
  · have hstep : m * (a + 1) ≤ m * b := Nat.mul_le_mul_left m hlt
    rw [Nat.mul_succ] at hstep
    rw [Nat.compare_eq_lt.mpr hlt, Ordering.lt_then, Nat.compare_eq_lt]
    omega
  · subst heq
    have hrest : compare (m * a + c) (m * a + d) = compare c d := by
      simp only [Nat.compare_eq_ite_lt, Nat.add_lt_add_iff_left]
    rw [hrest, Nat.compare_eq_eq.mpr rfl, Ordering.eq_then]
  · have hstep : m * (b + 1) ≤ m * a := Nat.mul_le_mul_left m hgt
    rw [Nat.mul_succ] at hstep
    rw [Nat.compare_eq_gt.mpr hgt, Ordering.gt_then, Nat.compare_eq_gt]
    omega

theorem compare_eq_compare_value {as bs : Bytes} (h : as.length = bs.length) :
    compare as bs = compare (value as) (value bs) := by
  induction as generalizing bs with
  | nil =>
    cases List.length_eq_zero_iff.mp h.symm
    rfl
  | cons a as ih =>
    cases bs with
    | nil => cases h
    | cons b bs =>
      have hlen : as.length = bs.length := Nat.succ.inj h
      have hlt := value_lt bs
      rw [← hlen] at hlt
      rw [List.compare_cons_cons, value_cons, value_cons, ← hlen,
        compare_mul_add (value_lt as) hlt, UInt8.compare_eq_toNat_compare_toNat, ih hlen]

theorem eq_of_value_eq {as bs : Bytes} (hlen : as.length = bs.length)
    (h : value as = value bs) : as = bs := by
  apply Std.LawfulEqOrd.eq_of_compare
  rw [compare_eq_compare_value hlen, h, Nat.compare_eq_eq]

/-! ## Counting -/

/-- What is lost where the octets wrap is one more than the greatest number. -/
theorem value_increment (bs : Bytes) :
    value (increment bs).2 + (if (increment bs).1 then 0 else 2 ^ (8 * bs.length)) =
      value bs + 1 := by
  induction bs with
  | nil => rfl
  | cons b bs ih =>
    have hlen := length_increment bs
    rw [increment]
    rcases hinc : increment bs with ⟨_ | _, bs'⟩
    · -- The octets after the first one wrap, and carry into it.
      rw [hinc] at ih hlen
      simp only [Bool.false_eq_true, ↓reduceIte] at ih ⊢
      rw [value_cons, value_cons, hlen, two_pow_length_cons, Nat.add_assoc _ _ 1, ← ih]
      generalize 2 ^ (8 * bs.length) = size
      by_cases hmax : b = 0xFF
      · subst hmax
        have h0 : ((0xFF : UInt8) + 1).toNat = 0 := rfl
        have h255 : (0xFF : UInt8).toNat = 255 := rfl
        simp only [bne_self_eq_false, Bool.false_eq_true, ↓reduceIte, h0, h255]
        omega
      · have hb : b.toNat ≠ 255 := fun h => hmax (UInt8.toNat_inj.mp h)
        have hsucc : (b + 1).toNat = b.toNat + 1 := by
          rw [UInt8.toNat_add]
          exact Nat.mod_eq_of_lt (Nat.lt_of_le_of_ne b.toNat_lt (by simpa using hb))
        simp only [bne_iff_ne, ne_eq, hmax, not_false_eq_true, ↓reduceIte, hsucc, Nat.mul_succ]
        omega
    · rw [hinc] at ih hlen
      simp only [↓reduceIte, Nat.add_zero] at ih ⊢
      rw [value_cons, value_cons, hlen, ih, Nat.add_assoc]

theorem value_increment_of_fits {bs : Bytes} (h : (increment bs).1 = true) :
    value (increment bs).2 = value bs + 1 := by
  have hvalue := value_increment bs
  rwa [h] at hvalue

/-- There is a next number exactly if it is below the power of two. -/
theorem increment_fits_iff (bs : Bytes) :
    (increment bs).1 = true ↔ value bs + 1 < 2 ^ (8 * bs.length) := by
  have hvalue := value_increment bs
  have hlt := value_lt (increment bs).2
  rw [length_increment] at hlt
  cases hfits : (increment bs).1 with
  | true =>
    simp only [hfits, ↓reduceIte, Nat.add_zero] at hvalue
    simpa [← hvalue] using hlt
  | false =>
    simp only [hfits, Bool.false_eq_true, ↓reduceIte] at hvalue
    simp only [Bool.false_eq_true, false_iff, Nat.not_lt]
    omega

theorem value_increment_eq_mod (bs : Bytes) :
    value (increment bs).2 = (value bs + 1) % 2 ^ (8 * bs.length) := by
  have hvalue := value_increment bs
  cases hfits : (increment bs).1 with
  | true =>
    simp only [hfits, ↓reduceIte, Nat.add_zero] at hvalue
    rw [hvalue, Nat.mod_eq_of_lt ((increment_fits_iff bs).mp hfits)]
  | false =>
    have hlt := value_lt (increment bs).2
    rw [length_increment] at hlt
    simp only [hfits, Bool.false_eq_true, ↓reduceIte] at hvalue
    rw [← hvalue, Nat.add_mod_right, Nat.mod_eq_of_lt hlt]

/-- Adds one to octets that are given from the least significant one on. An octet that overflows
wraps and carries into the next one, and the first that does not overflow ends the walk. -/
def carry : Bytes → Bool × Bytes
  | [] => (false, [])
  | b :: bs =>
    if b.toNat + 1 < 256 then (true, (b + 1) :: bs) else ((carry bs).1, (b + 1) :: (carry bs).2)

theorem toNat_succ_lt_iff {b : UInt8} : b.toNat + 1 < 256 ↔ b ≠ 0xFF := by
  have hb : b.toNat < 256 := b.toNat_lt
  have hmax : (0xFF : UInt8).toNat = 255 := rfl
  rw [ne_eq, ← UInt8.toNat_inj, hmax]
  omega

/-- The most significant octet is reached only by a carry out of all others. -/
theorem carry_concat (bs : Bytes) (b : UInt8) :
    carry (bs ++ [b]) =
      if (carry bs).1 then (true, (carry bs).2 ++ [b]) else (b != 0xFF, (carry bs).2 ++ [b + 1]) := by
  induction bs with
  | nil => by_cases hb : b = 0xFF <;> simp [carry, toNat_succ_lt_iff, hb]
  | cons a bs ih =>
    by_cases ha : a.toNat + 1 < 256
    · simp [carry, ha]
    · rw [List.cons_append, carry, if_neg ha, ih, carry, if_neg ha]
      split <;> rfl

/-- Going from the least significant octet on, only as far as there is a carry, comes to the same. -/
theorem increment_eq_carry (bs : Bytes) :
    increment bs = ((carry bs.reverse).1, (carry bs.reverse).2.reverse) := by
  induction bs with
  | nil => rfl
  | cons b bs ih =>
    rw [increment, ih, List.reverse_cons, carry_concat]
    cases (carry bs.reverse).1 <;> simp

/-! ## Networks -/

theorem toNat_and_keepMask {p : Nat} (hp : p < 8) (b : UInt8) :
    (b &&& keepMask p).toNat + b.toNat % 2 ^ (8 - p) = b.toNat := by
  have hall : ∀ p : Fin 8, ∀ b : Fin 256,
      (UInt8.ofFin b &&& keepMask p).toNat + b.val % 2 ^ (8 - p.val) = b.val := by
    decide +kernel
  exact hall ⟨p, hp⟩ b.toFin

theorem toNat_or_compl_keepMask {p : Nat} (hp : p < 8) (b : UInt8) :
    (b ||| ~~~keepMask p).toNat + 1 = (b &&& keepMask p).toNat + 2 ^ (8 - p) := by
  have hall : ∀ p : Fin 8, ∀ b : Fin 256,
      (UInt8.ofFin b ||| ~~~keepMask p).toNat + 1 =
        (UInt8.ofFin b &&& keepMask p).toNat + 2 ^ (8 - p.val) := by
    decide +kernel
  exact hall ⟨p, hp⟩ b.toFin

/-- The host bits of a number are its remainder by the size of its network. -/
theorem value_network {bs : Bytes} {p : Nat} (hp : p ≤ 8 * bs.length) :
    value (network bs p) + value bs % 2 ^ (8 * bs.length - p) = value bs := by
  induction bs generalizing p with
  | nil => simp [network]
  | cons b bs ih =>
    rw [List.length_cons, Nat.mul_succ] at hp ⊢
    rw [network]
    split
    next h8 =>
      have hbits : 8 * bs.length + 8 - p = 8 * bs.length - (p - 8) := by omega
      have hdvd : 2 ^ (8 * bs.length - (p - 8)) ∣ 2 ^ (8 * bs.length) * b.toNat :=
        Nat.dvd_mul_right_of_dvd (Nat.pow_dvd_pow 2 (Nat.sub_le _ _)) _
      rw [value_cons, value_cons, length_network, hbits, Nat.add_mod,
        Nat.mod_eq_zero_of_dvd hdvd, Nat.zero_add, Nat.mod_mod, Nat.add_assoc, ih (by omega)]
    next h8 =>
      have hlt : p < 8 := Nat.lt_of_not_le h8
      have hbits : 8 * bs.length + 8 - p = 8 * bs.length + (8 - p) := by omega
      have hb := toNat_and_keepMask hlt b
      have hbs := value_lt bs
      rw [List.map_const', value_cons, value_cons, List.length_replicate, value_replicate_zero,
        hbits, Nat.pow_add, Nat.mod_mul, Nat.mul_add_mod, Nat.mod_eq_of_lt hbs,
        Nat.mul_add_div (Nat.two_pow_pos _), Nat.div_eq_of_lt hbs, Nat.add_zero, Nat.add_zero]
      calc
        2 ^ (8 * bs.length) * (b &&& keepMask p).toNat +
              (value bs + 2 ^ (8 * bs.length) * (b.toNat % 2 ^ (8 - p))) =
            2 ^ (8 * bs.length) * ((b &&& keepMask p).toNat + b.toNat % 2 ^ (8 - p)) +
              value bs := by rw [Nat.mul_add]; omega
        _ = 2 ^ (8 * bs.length) * b.toNat + value bs := by rw [hb]

/-- The host bits of a number are set by adding what the size of its network leaves. -/
theorem value_broadcast {bs : Bytes} {p : Nat} (hp : p ≤ 8 * bs.length) :
    value (broadcast bs p) + 1 = value (network bs p) + 2 ^ (8 * bs.length - p) := by
  induction bs generalizing p with
  | nil => simp [network, broadcast]
  | cons b bs ih =>
    rw [List.length_cons, Nat.mul_succ] at hp ⊢
    rw [network, broadcast]
    by_cases h8 : 8 ≤ p
    · have hbits : 8 * bs.length + 8 - p = 8 * bs.length - (p - 8) := by omega
      rw [if_pos h8, if_pos h8, value_cons, value_cons, length_network, length_broadcast, hbits,
        Nat.add_assoc, ih (by omega), Nat.add_assoc]
    · have hbits : 8 * bs.length + 8 - p = 8 * bs.length + (8 - p) := by omega
      have hb := toNat_or_compl_keepMask (Nat.lt_of_not_le h8) b
      rw [if_neg h8, if_neg h8, List.map_const', List.map_const', value_cons, value_cons,
        List.length_replicate, List.length_replicate, value_replicate_zero, Nat.add_assoc,
        value_replicate_max, hbits, Nat.pow_add, Nat.add_zero, ← Nat.mul_succ, Nat.succ_eq_add_one,
        hb, Nat.mul_add]

end NetLiteral.Octets
