import NetLiteral.Hosts
import NetLiteral.Proofs.Address.Value
import NetLiteral.Proofs.Route.Containment

/-!
# Listing hosts to the end

Asked again and again for its next host, an iterator answers with the addresses from its first one
up to its bound, in order, and with none ever after. The hosts of a network are therefore all its
addresses but the least and the greatest one.
-/

namespace NetLiteral

namespace Hosts

variable {f : Family}

/-! ## One step -/

/-- The answer to being asked for a host, and the hosts left over. -/
def call (h : Hosts f) : Option (Address f) × Hosts f :=
  match h.next? with
  | none => (none, h)
  | some (a, rest) => (some a, rest)

/-- The hosts left over after being asked `k` times. -/
def after (h : Hosts f) : Nat → Hosts f
  | 0 => h
  | k + 1 => (h.after k).call.2

/-- How many addresses there are from the next one up to the bound. -/
def remaining (h : Hosts f) : Nat :=
  match h.next with
  | none => 0
  | some a => h.stop.value - a.value

theorem first?_eq_some_iff {h : Hosts f} {a : Address f} :
    h.first? = some a ↔ h.next = some a ∧ a.value < h.stop.value := by
  rw [first?, Option.filter_eq_some_iff, Address.compare_isLT_iff]

theorem next?_eq_some_iff {h rest : Hosts f} {a : Address f} :
    h.next? = some (a, rest) ↔
      h.next = some a ∧ a.value < h.stop.value ∧ rest = ⟨a.successor?, h.stop⟩ := by
  rw [next?, Option.map_eq_some_iff]
  constructor
  · rintro ⟨b, hfirst, heq⟩
    cases heq
    obtain ⟨hnext, hlt⟩ := first?_eq_some_iff.mp hfirst
    exact ⟨hnext, hlt, rfl⟩
  · rintro ⟨hnext, hlt, rfl⟩
    exact ⟨a, first?_eq_some_iff.mpr ⟨hnext, hlt⟩, rfl⟩

theorem le_of_next?_eq_none {h : Hosts f} (hnone : h.next? = none) {a : Address f}
    (hnext : h.next = some a) : h.stop.value ≤ a.value := by
  by_contra hlt
  have hsome := next?_eq_some_iff.mpr ⟨hnext, Nat.lt_of_not_le hlt, rfl⟩
  rw [hnone] at hsome
  cases hsome

/-- Each host listed leaves one less, also where the next one would wrap. -/
theorem remaining_of_next? {h rest : Hosts f} {a : Address f} (hnext : h.next? = some (a, rest)) :
    h.remaining = rest.remaining + 1 := by
  obtain ⟨hfirst, hlt, rfl⟩ := next?_eq_some_iff.mp hnext
  rw [remaining, hfirst]
  cases hsucc : a.successor? with
  | some b =>
    have hb := Address.value_successor? hsucc
    simp only [remaining]
    omega
  | none =>
    have hmax := Address.le_of_successor?_eq_none hsucc
    have hstop := h.stop.value_lt
    simp only [remaining]
    omega

theorem remaining_of_none {h : Hosts f} (hnone : h.next? = none) : h.remaining = 0 := by
  rw [remaining]
  cases hfirst : h.next with
  | none => rfl
  | some a => exact Nat.sub_eq_zero_of_le (le_of_next?_eq_none hnone hfirst)

/-! ## All hosts -/

/-- All hosts still to be listed, in order. -/
def toList (h : Hosts f) : List (Address f) :=
  match hnext : h.next? with
  | none => []
  | some (a, rest) =>
    have : rest.remaining < h.remaining := by
      rw [remaining_of_next? hnext]
      exact Nat.lt_succ_self _
    a :: rest.toList
termination_by h.remaining

theorem toList_of_none {h : Hosts f} (hnext : h.next? = none) : h.toList = [] := by
  rw [toList]
  split <;> simp_all

theorem toList_of_some {h rest : Hosts f} {a : Address f} (hnext : h.next? = some (a, rest)) :
    h.toList = a :: rest.toList := by
  rw [toList]
  split <;> simp_all

/-- The hosts are consecutive, from a number given apart, as there may be no next address. -/
theorem map_value_toList {h : Hosts f} {v : Nat} (hv : ∀ a, h.next = some a → a.value = v) :
    h.toList.map Address.value = List.range' v h.remaining := by
  fun_induction toList h generalizing v with
  | case1 h hnone =>
    rw [remaining_of_none hnone]
    rfl
  | case2 h a rest hsome _ ih =>
    obtain ⟨hfirst, _, rfl⟩ := next?_eq_some_iff.mp hsome
    have ha := hv a hfirst
    have hrest : ∀ b, a.successor? = some b → b.value = v + 1 := by
      intro b hb
      rw [Address.value_successor? hb, ha]
    rw [remaining_of_next? hsome, List.range'_succ, List.map_cons, ha, ih hrest]

theorem exists_map_value (h : Hosts f) : ∃ v, (∀ a, h.next = some a → a.value = v) ∧
    h.toList.map Address.value = List.range' v h.remaining := by
  have hv : ∀ a, h.next = some a → a.value = h.next.elim 0 Address.value := by
    intro a ha
    rw [ha, Option.elim_some]
  exact ⟨_, hv, map_value_toList hv⟩

theorem length_toList (h : Hosts f) : h.toList.length = h.remaining := by
  obtain ⟨v, _, hvalues⟩ := h.exists_map_value
  rw [← List.length_map Address.value, hvalues, List.length_range']

theorem pairwise_toList (h : Hosts f) : h.toList.Pairwise fun a b => a.value < b.value := by
  obtain ⟨v, _, hvalues⟩ := h.exists_map_value
  rw [← List.pairwise_map, hvalues]
  exact List.pairwise_lt_range'

/-- The hosts are the addresses from the next one up to the bound. -/
theorem mem_toList_iff {h : Hosts f} {x : Address f} :
    x ∈ h.toList ↔ ∃ a, h.next = some a ∧ a.value ≤ x.value ∧ x.value < h.stop.value := by
  obtain ⟨v, hv, hvalues⟩ := h.exists_map_value
  have hinj : Function.Injective (Address.value : Address f → Nat) :=
    fun _ _ => Address.eq_of_value_eq
  rw [← List.mem_map_of_injective hinj, hvalues, List.mem_range'_1, remaining]
  cases hnext : h.next with
  | none =>
    simp only [reduceCtorEq, false_and, exists_false, iff_false]
    omega
  | some a =>
    have ha := hv a hnext
    simp only [Option.some.injEq, exists_eq_left']
    omega

/-! ## Being asked again and again -/

theorem call_of_none {h : Hosts f} (hnext : h.next? = none) : h.call = (none, h) := by
  rw [call, hnext]

theorem call_of_some {h rest : Hosts f} {a : Address f} (hnext : h.next? = some (a, rest)) :
    h.call = (some a, rest) := by
  rw [call, hnext]

theorem call_fst (h : Hosts f) : h.call.1 = h.toList.head? := by
  cases hnext : h.next? with
  | none => rw [call_of_none hnext, toList_of_none hnext, List.head?_nil]
  | some p => rw [call_of_some hnext, toList_of_some hnext, List.head?_cons]

theorem toList_call_snd (h : Hosts f) : h.call.2.toList = h.toList.tail := by
  cases hnext : h.next? with
  | none => rw [call_of_none hnext, toList_of_none hnext, List.tail_nil]
  | some p => rw [call_of_some hnext, toList_of_some hnext, List.tail_cons]

theorem stop_call_snd (h : Hosts f) : h.call.2.stop = h.stop := by
  cases hnext : h.next? with
  | none => rw [call_of_none hnext]
  | some p => rw [call_of_some hnext, (next?_eq_some_iff.mp hnext).2.2]

theorem first?_eq (h : Hosts f) : h.first? = h.call.1 := by
  rw [call, next?]
  cases h.first? <;> rfl

theorem toList_after (h : Hosts f) (k : Nat) : (h.after k).toList = h.toList.drop k := by
  induction k with
  | zero => rfl
  | succ k ih => rw [after, toList_call_snd, ih, List.tail_drop]

theorem after_succ (h : Hosts f) (k : Nat) : h.after (k + 1) = h.call.2.after k := by
  induction k with
  | zero => rfl
  | succ k ih => rw [after, ih, after]

theorem after_of_none {h : Hosts f} (hnext : h.next? = none) (k : Nat) : h.after k = h := by
  induction k with
  | zero => rfl
  | succ k ih => rw [after, ih, call_of_none hnext]

theorem takeOnto_eq (n : Nat) (h : Hosts f) (acc : List (Address f)) :
    takeOnto n h acc = (acc.reverse ++ h.toList.take n, h.after n) := by
  induction n generalizing h acc with
  | zero => simp [takeOnto, after]
  | succ n ih =>
    rw [takeOnto]
    split
    next hnext => rw [toList_of_none hnext, after_of_none hnext, List.take_nil, List.append_nil]
    next a rest hnext =>
      rw [ih, after_succ, call_of_some hnext, toList_of_some hnext, List.take_succ_cons,
        List.reverse_cons, List.append_assoc, List.singleton_append]

/-- Asked again and again, the iterator answers with the addresses of a list, one after another, and
with none ever after. Before each time `first?` gives the answer, and the bound stays. -/
structure Lists (h : Hosts f) (l : List (Address f)) : Prop where
  call : ∀ k, (h.after k).call.1 = l[k]?
  first? : ∀ k, (h.after k).first? = l[k]?
  stop : ∀ k, (h.after k).stop = h.stop
  take : ∀ k, h.take k = (l.take k, h.after k)

theorem lists_toList (h : Hosts f) : h.Lists h.toList := by
  have hcall (k : Nat) : (h.after k).call.1 = h.toList[k]? := by
    rw [call_fst, toList_after, List.head?_drop]
  refine ⟨hcall, ?_, ?_, ?_⟩
  · intro k
    rw [first?_eq, hcall]
  · intro k
    induction k with
    | zero => rfl
    | succ k ih => rw [after, stop_call_snd, ih]
  · intro k
    rw [Hosts.take, takeOnto_eq, List.reverse_nil, List.nil_append]

/-! ## Between two addresses -/

theorem mem_between_iff {n b x : Address f} :
    x ∈ (between n b).toList ↔ n.value < x.value ∧ x.value < b.value := by
  rw [mem_toList_iff]
  constructor
  · rintro ⟨a, hsucc, hle, hlt⟩
    have ha := Address.value_successor? hsucc
    exact ⟨by omega, hlt⟩
  · rintro ⟨hgt, hlt⟩
    obtain ⟨a, hsucc⟩ := Address.exists_successor? (Nat.lt_of_le_of_lt hgt x.value_lt)
    have ha := Address.value_successor? hsucc
    exact ⟨a, hsucc, by omega, hlt⟩

theorem length_between (n b : Address f) :
    (between n b).toList.length = b.value - n.value - 1 := by
  rw [length_toList, remaining]
  cases hsucc : (between n b).next with
  | some a =>
    have ha : a.value = n.value + 1 := Address.value_successor? hsucc
    show b.value - a.value = _
    omega
  | none =>
    have hmax : 2 ^ f.bits ≤ n.value + 1 := Address.le_of_successor?_eq_none hsucc
    have hb := b.value_lt
    show 0 = _
    omega

theorem map_value_between (n b : Address f) :
    (between n b).toList.map Address.value = List.range' (n.value + 1) (b.value - n.value - 1) := by
  rw [← length_between, length_toList]
  exact map_value_toList fun _ => Address.value_successor?

/-- Between any two addresses, in whatever order they are, the hosts are exactly the addresses
between them, each once and in order. Those of a network are all its addresses but its own and the
broadcast address. -/
theorem hosts_listed_exactly (f : Family) :
    (∀ n b : Address f, ∃ l : List (Address f),
      (between n b).Lists l ∧ (between n b).stop = b ∧
      l.Pairwise (fun x y => x.value < y.value) ∧
      ∀ x, x ∈ l ↔ n.value < x.value ∧ x.value < b.value) ∧
    ∀ r : Route f, ∃ l : List (Address f),
      r.hosts.Lists l ∧ l.Nodup ∧ l.length = 2 ^ r.prefixLength.hostBits - 2 ∧
      ∀ x, x ∈ l ↔ r.contains x = true ∧ x ≠ r.address ∧ x ≠ r.broadcast := by
  constructor
  · intro n b
    exact ⟨_, lists_toList _, rfl, pairwise_toList _, fun x => mem_between_iff⟩
  · intro r
    refine ⟨_, lists_toList _, ?_, ?_, ?_⟩
    · exact (pairwise_toList _).imp fun hlt heq => Nat.ne_of_lt hlt (congrArg Address.value heq)
    · have hend := r.value_broadcast
      rw [Route.hosts, length_between]
      omega
    · intro x
      rw [Route.hosts, mem_between_iff, r.contains_iff_between]
      simp only [ne_eq, ← Address.value_inj]
      omega

end Hosts

/-- The hosts of a network are consecutive, from the address after its own. -/
theorem Route.map_value_hosts {f : Family} (r : Route f) :
    r.hosts.toList.map Address.value =
      List.range' (r.address.value + 1) (2 ^ r.prefixLength.hostBits - 2) := by
  have hend := r.value_broadcast
  rw [hosts, Hosts.map_value_between]
  congr 1
  omega

end NetLiteral
