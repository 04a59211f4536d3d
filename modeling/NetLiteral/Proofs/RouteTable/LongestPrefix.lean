import NetLiteral.Proofs.RouteTable.FiniteMap

/-!
# Longest-prefix match

The routes of a table that contain an address are nested, and the order of the table lists them from
the smallest to the largest. The first one that a lookup meets is therefore the most specific one.
-/

namespace NetLiteral.RouteTable

variable {f : Family} {α : Type}

theorem mem_containing_iff {t : RouteTable f α} {a : Address f} {r : Route f} {v : α} :
    (r, v) ∈ t.containing a ↔ (r, v) ∈ t.entries ∧ r.contains a = true :=
  List.mem_filter

theorem containing_nodup_routes (t : RouteTable f α) (a : Address f) :
    ((t.containing a).map Prod.fst).Nodup :=
  (entries_nodup_routes t).sublist (List.filter_sublist.map Prod.fst)

/-- Of two routes that contain an address, the earlier one in the order has the longer prefix. -/
theorem prefixLength_lt_of_compare {r s : Route f} {a : Address f} (hr : r.contains a = true)
    (hs : s.contains a = true) (h : compare r s = .lt) :
    s.prefixLength.len < r.prefixLength.len := by
  rcases Route.compare_eq_lt_iff.mp h with hlt | ⟨heq, _⟩
  · exact hlt
  · have hrs : r = s := Route.eq_of_contains hr hs heq.symm
    rw [hrs, Std.ReflOrd.compare_self] at h
    cases h

theorem containing_pairwise (t : RouteTable f α) (a : Address f) :
    (t.containing a).Pairwise fun e e' =>
      e'.1.prefixLength.len < e.1.prefixLength.len ∧ e.1.addresses ⊂ e'.1.addresses := by
  refine ((entries_pairwise_lt t).filter _).imp_of_mem ?_
  intro e e' he he' hlt
  have hr : e.1.contains a = true := (mem_containing_iff.mp he).2
  have hs : e'.1.contains a = true := (mem_containing_iff.mp he').2
  have hlen := prefixLength_lt_of_compare hr hs hlt
  exact ⟨hlen, Route.addresses_ssubset hr hs hlen⟩

theorem lookup_eq_head? (t : RouteTable f α) (a : Address f) :
    (t.lookup a).value = (t.containing a).head? :=
  List.head?_filter.symm

theorem lookup_eq_none_iff {t : RouteTable f α} {a : Address f} :
    (t.lookup a).value = none ↔ ∀ r v, (r, v) ∈ t.entries → r.contains a = false := by
  rw [lookup_eq_head?, List.head?_eq_none_iff, List.eq_nil_iff_forall_not_mem]
  constructor
  · intro h r v hmem
    exact Bool.eq_false_iff.mpr fun hr => h (r, v) (mem_containing_iff.mpr ⟨hmem, hr⟩)
  · intro h e he
    obtain ⟨hmem, hr⟩ := mem_containing_iff.mp he
    exact Bool.eq_false_iff.mp (h e.1 e.2 hmem) hr

/-- A lookup finds the entry whose prefix is longer than that of every other entry for the
address. -/
theorem lookup_eq_some_iff {t : RouteTable f α} {a : Address f} {r : Route f} {v : α} :
    (t.lookup a).value = some (r, v) ↔
      (r, v) ∈ t.entries ∧ r.contains a = true ∧
        ∀ s w, (s, w) ∈ t.entries → s.contains a = true → s ≠ r →
          s.prefixLength.len < r.prefixLength.len := by
  rw [lookup_eq_head?]
  have hsorted := containing_pairwise t a
  constructor
  · intro h
    obtain ⟨rest, hrest⟩ := List.head?_eq_some_iff.mp h
    have hmem : (r, v) ∈ t.containing a := by rw [hrest]; exact List.mem_cons_self
    refine ⟨(mem_containing_iff.mp hmem).1, (mem_containing_iff.mp hmem).2, ?_⟩
    intro s w hs hsa hne
    have hmem' : (s, w) ∈ t.containing a := mem_containing_iff.mpr ⟨hs, hsa⟩
    rw [hrest] at hmem' hsorted
    rcases List.mem_cons.mp hmem' with heq | htail
    · exact absurd (congrArg Prod.fst heq) hne
    · exact ((List.pairwise_cons.mp hsorted).1 (s, w) htail).1
  · rintro ⟨hmem, hr, hlongest⟩
    have hin : (r, v) ∈ t.containing a := mem_containing_iff.mpr ⟨hmem, hr⟩
    cases hc : t.containing a with
    | nil => rw [hc] at hin; cases hin
    | cons e rest =>
      rw [hc] at hin hsorted
      rcases List.mem_cons.mp hin with heq | htail
      · rw [List.head?_cons, heq]
      · -- An entry before `r` would have a longer prefix.
        have hlt := ((List.pairwise_cons.mp hsorted).1 (r, v) htail).1
        have he : e ∈ t.containing a := by rw [hc]; exact List.mem_cons_self
        obtain ⟨hentry, hea⟩ := mem_containing_iff.mp he
        have hne : e.1 ≠ r := by
          intro heq
          rw [heq] at hlt
          exact Nat.lt_irrefl _ hlt
        exact absurd (hlongest e.1 e.2 hentry hea hne) (Nat.lt_asymm hlt)

/-- After any history the matches of an address are the stored entries that contain it, nested from
the smallest network to the largest, and a lookup finds the first of them. A route contains the
addresses that it is the network of, which is what clearing their host bits leaves. -/
theorem longest_prefix_match_after (ops : List (Operation f α)) (a : Address f) :
    (∀ r : Route f, r.contains a = true ↔ a.network r.prefixLength = r.address) ∧
    (∀ p, (a.network p).value = a.value - a.value % 2 ^ p.hostBits) ∧
    (∀ r v, (r, v) ∈ (after ops).entries ↔ lastStored? ops r = some v) ∧
    (∀ r v, (r, v) ∈ (after ops).containing a ↔
      lastStored? ops r = some v ∧ r.contains a = true) ∧
    (((after ops).containing a).map Prod.fst).Nodup ∧
    (((after ops).containing a).Pairwise fun e e' =>
      e'.1.prefixLength.len < e.1.prefixLength.len ∧ e.1.addresses ⊂ e'.1.addresses) ∧
    ((after ops).lookup a).value = ((after ops).containing a).head? ∧
    (((after ops).lookup a).value = none ↔
      ∀ r v, lastStored? ops r = some v → r.contains a = false) ∧
    (∀ r v, ((after ops).lookup a).value = some (r, v) ↔
      lastStored? ops r = some v ∧ r.contains a = true ∧
        ∀ s w, lastStored? ops s = some w → s.contains a = true → s ≠ r →
          s.prefixLength.len < r.prefixLength.len) := by
  have hentries : ∀ r v, (r, v) ∈ (after ops).entries ↔ lastStored? ops r = some v := by
    intro r v
    rw [mem_entries_iff, get?_after]
  refine ⟨fun r => Route.contains_iff, a.value_network_eq_sub, hentries, ?_,
    containing_nodup_routes _ a, containing_pairwise _ a, lookup_eq_head? _ a, ?_, ?_⟩
  · intro r v
    rw [mem_containing_iff, hentries]
  · simp only [lookup_eq_none_iff, hentries]
  · intro r v
    simp only [lookup_eq_some_iff, hentries]

end NetLiteral.RouteTable
