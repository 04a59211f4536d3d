import NetLiteral.Octets

/-!
# Prefixes of octets

Two lists of octets of one length share a prefix exactly if clearing their host bits leaves the same
octets. A shorter prefix forgets more: it can be taken after a longer one without changing the
result, and it leaves octets together that a longer prefix tells apart.
-/

namespace NetLiteral.Octets

/-! ## Masks of one octet -/

/-- A mask that keeps more bits than another keeps all that the other keeps. -/
theorem keepMask_and_keepMask {p q : Nat} (h : q ≤ p) (hp : p < 8) :
    keepMask p &&& keepMask q = keepMask q := by
  have hall : ∀ p : Fin 8, ∀ q : Fin 8, q ≤ p →
      keepMask p.val &&& keepMask q.val = keepMask q.val := by decide
  exact hall ⟨p, hp⟩ ⟨q, by omega⟩ h

/-- A mask keeps a bit that a shorter mask drops. -/
theorem compl_keepMask_and_keepMask_ne_zero {p q : Nat} (h : q < p) (hp : p < 8) :
    ~~~keepMask q &&& keepMask p ≠ 0 := by
  have hall : ∀ p : Fin 8, ∀ q : Fin 8, q < p →
      ~~~keepMask q.val &&& keepMask p.val ≠ 0 := by decide
  exact hall ⟨p, hp⟩ ⟨q, by omega⟩ h

/-- Every mask drops a bit. -/
theorem compl_keepMask_ne_zero {q : Nat} (hq : q < 8) : ~~~keepMask q ≠ 0 := by
  have hall : ∀ q : Fin 8, ~~~keepMask q.val ≠ 0 := by decide
  exact hall ⟨q, hq⟩

/-- Clearing and setting the bits that `m` drops can be told apart by any such bit in `k`. -/
theorem and_ne_or_compl {b m k : UInt8} (h : ~~~m &&& k ≠ 0) :
    b &&& m &&& k ≠ (b ||| ~~~m) &&& k := by
  intro heq
  apply h
  rw [← UInt8.toBitVec_inj] at heq ⊢
  apply BitVec.eq_of_getElem_eq
  intro i hi
  have hbit := congrArg (·[i]) heq
  simp only [UInt8.toBitVec_and, UInt8.toBitVec_or, UInt8.toBitVec_not, BitVec.getElem_and,
    BitVec.getElem_or, BitVec.getElem_not] at hbit
  simp only [UInt8.toBitVec_and, UInt8.toBitVec_not, UInt8.toBitVec_ofNat, BitVec.getElem_and,
    BitVec.getElem_not, BitVec.getElem_zero]
  grind

/-! ## Agreement on a prefix -/

theorem map_const_eq_map_const_iff {as bs : Bytes} {b : UInt8} :
    (as.map fun _ => b) = (bs.map fun _ => b) ↔ as.length = bs.length := by
  simp [List.map_const', List.replicate_inj]

/-- Octets agree on a prefix if they are equally long and lie in one network. -/
theorem sameNetwork_iff (as bs : Bytes) (p : Nat) :
    sameNetwork as bs p = true ↔ as.length = bs.length ∧ network as p = network bs p := by
  induction as generalizing bs p with
  | nil => cases bs <;> simp [sameNetwork, network]
  | cons a as ih =>
    cases bs with
    | nil => simp [sameNetwork]
    | cons b bs =>
      by_cases hp : 8 ≤ p
      · simp only [sameNetwork, network, hp, ↓reduceIte, Bool.and_eq_true, beq_iff_eq, ih,
          List.length_cons, List.cons.injEq, Nat.add_right_cancel_iff]
        exact and_left_comm
      · simp only [sameNetwork, network, hp, ↓reduceIte, Bool.and_eq_true, beq_iff_eq,
          List.length_cons, List.cons.injEq, map_const_eq_map_const_iff, Nat.add_right_cancel_iff]
        exact ⟨fun h => ⟨h.1, h.2, h.1⟩, fun h => ⟨h.1, h.2.1⟩⟩

/-- Compares the octets before the one in which the prefix ends, and then that one under its mask. -/
def agreeInParts (as bs : Bytes) (p : Nat) : Bool :=
  as.length == bs.length && as.take (p / 8) == bs.take (p / 8) &&
    match as[p / 8]?, bs[p / 8]? with
    | some a, some b => a &&& keepMask (p % 8) == b &&& keepMask (p % 8)
    | _, _ => true

theorem agreeInParts_cons_of_le {p : Nat} (h : 8 ≤ p) (a b : UInt8) (as bs : Bytes) :
    agreeInParts (a :: as) (b :: bs) p = (a == b && agreeInParts as bs (p - 8)) := by
  have hdiv : p / 8 = (p - 8) / 8 + 1 := by omega
  have hmod : p % 8 = (p - 8) % 8 := by omega
  rw [agreeInParts, agreeInParts, hdiv, hmod]
  simp only [List.length_cons, List.take_succ_cons, List.getElem?_cons_succ, List.cons.injEq,
    Nat.add_right_cancel_iff, Bool.beq_eq_decide_eq, Bool.decide_and]
  ac_rfl

theorem agreeInParts_cons_of_lt {p : Nat} (h : p < 8) (a b : UInt8) (as bs : Bytes) :
    agreeInParts (a :: as) (b :: bs) p =
      (as.length == bs.length && a &&& keepMask p == b &&& keepMask p) := by
  have hdiv : p / 8 = 0 := by omega
  have hmod : p % 8 = p := by omega
  simp [agreeInParts, hdiv, hmod]

theorem sameNetwork_eq_agreeInParts (as bs : Bytes) (p : Nat) :
    sameNetwork as bs p = agreeInParts as bs p := by
  induction as generalizing bs p with
  | nil => cases bs <;> simp [sameNetwork, agreeInParts]
  | cons a as ih =>
    cases bs with
    | nil => simp [sameNetwork, agreeInParts]
    | cons b bs =>
      rw [sameNetwork]
      split
      next h => rw [agreeInParts_cons_of_le h, ih]
      next h => rw [agreeInParts_cons_of_lt (Nat.lt_of_not_le h)]

/-! ## Shorter prefixes -/

/-- Clearing more host bits makes an earlier clearing of fewer of them superfluous. -/
theorem network_network_of_le {p q : Nat} (h : q ≤ p) (bs : Bytes) :
    network (network bs p) q = network bs q := by
  induction bs generalizing p q with
  | nil => rfl
  | cons b bs ih =>
    by_cases hq : 8 ≤ q
    · have hp : 8 ≤ p := by omega
      simp only [network, hp, hq, ↓reduceIte, ih (show q - 8 ≤ p - 8 by omega)]
    · by_cases hp : 8 ≤ p
      · simp [network, hp, hq, length_network, List.map_const']
      · simp [network, hp, hq, UInt8.and_assoc, keepMask_and_keepMask h (by omega)]

/-- Setting host bits does not leave the network. -/
theorem network_broadcast (bs : Bytes) (p : Nat) : network (broadcast bs p) p = network bs p := by
  induction bs generalizing p with
  | nil => rfl
  | cons b bs ih =>
    by_cases hp : 8 ≤ p
    · simp only [network, broadcast, hp, ↓reduceIte, ih]
    · have hb : (b ||| ~~~keepMask p) &&& keepMask p = b &&& keepMask p := by
        rw [← UInt8.toBitVec_inj]
        apply BitVec.eq_of_getElem_eq
        intro i hi
        simp [Bool.and_or_distrib_right]
      simp [network, broadcast, hp, hb, List.map_const']

/-- The least and the greatest octets of a network part ways right after its prefix. -/
theorem network_network_ne_network_broadcast {p q : Nat} (h : q < p) (bs : Bytes)
    (hp : p ≤ 8 * bs.length) : network (network bs q) p ≠ network (broadcast bs q) p := by
  induction bs generalizing p q with
  | nil => simp only [List.length_nil] at hp; omega
  | cons b bs ih =>
    by_cases hq : 8 ≤ q
    · have hp8 : 8 ≤ p := by omega
      have hlen : p - 8 ≤ 8 * bs.length := by simp only [List.length_cons] at hp; omega
      simp only [network, broadcast, hq, hp8, ↓reduceIte, ne_eq, List.cons.injEq, true_and]
      exact ih (by omega) hlen
    · -- The octets part ways in the first one, whether `p` ends in it or later.
      intro heq
      have hhead := congrArg List.head? heq
      by_cases hp8 : 8 ≤ p
      · simp only [network, broadcast, hq, hp8, ↓reduceIte, List.head?_cons,
          Option.some.injEq] at hhead
        have hne := compl_keepMask_ne_zero (show q < 8 by omega)
        have hbits := and_ne_or_compl (b := b) (m := keepMask q) (k := -1) (by simpa using hne)
        simp only [UInt8.and_neg_one] at hbits
        exact hbits hhead
      · simp only [network, broadcast, hq, hp8, ↓reduceIte, List.head?_cons,
          Option.some.injEq] at hhead
        exact and_ne_or_compl (compl_keepMask_and_keepMask_ne_zero h (by omega)) hhead

end NetLiteral.Octets
