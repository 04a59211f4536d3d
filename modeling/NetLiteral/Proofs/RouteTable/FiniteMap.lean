import Mathlib.Data.Finset.Card
import NetLiteral.Proofs.Route.Containment
import NetLiteral.Proofs.RouteTable.Operation

/-!
# Route tables are finite maps

Through `get?` a table is a finite map from routes to values, and nothing else about it can be
observed: each operation changes the map in the expected way, and tables with one map answer alike
from then on.
-/

namespace NetLiteral.RouteTable

variable {f : Family} {α : Type}

/-! ## Values after one operation -/

theorem get?_empty (r : Route f) : (empty : RouteTable f α).get? r = none :=
  Std.TreeMap.getElem?_emptyc

theorem get?_insert (t : RouteTable f α) (r s : Route f) (a : α) :
    (t.insert r a).value.2.get? s = if r = s then some a else t.get? s := by
  have h : (t.routes.insert r a)[s]? = if compare r s = .eq then some a else t.routes[s]? :=
    Std.TreeMap.getElem?_insert
  simp only [Std.LawfulEqOrd.compare_eq_iff_eq] at h
  exact h

theorem get?_remove (t : RouteTable f α) (r s : Route f) :
    (t.remove r).value.2.get? s = if r = s then none else t.get? s := by
  have h : (t.routes.erase r)[s]? = if compare r s = .eq then none else t.routes[s]? :=
    Std.TreeMap.getElem?_erase
  simp only [Std.LawfulEqOrd.compare_eq_iff_eq] at h
  exact h

theorem lastValue?_cons (e : Route f × α) (es : List (Route f × α)) (r : Route f) :
    lastValue? r (e :: es) = (lastValue? r es).or (if e.1 = r then some e.2 else none) := by
  by_cases h : e.1 = r <;> simp [lastValue?, List.find?_append, h]

/-- Entries that are stored one after another replace earlier values of their routes. -/
theorem getElem?_foldl_insert (m : Std.TreeMap (Route f) α) (es : List (Route f × α))
    (r : Route f) :
    (es.foldl (fun m e => m.insert e.1 e.2) m)[r]? = (lastValue? r es).or m[r]? := by
  induction es generalizing m with
  | nil => rfl
  | cons e es ih =>
    rw [List.foldl_cons, ih, Std.TreeMap.getElem?_insert, lastValue?_cons, Option.or_assoc]
    by_cases h : e.1 = r <;> simp [h]

theorem get?_ofList (es : List (Route f × α)) (r : Route f) :
    (ofList es).get? r = lastValue? r es := by
  have h := getElem?_foldl_insert ∅ es r
  rw [Std.TreeMap.getElem?_emptyc, Option.or_none] at h
  exact h

theorem get?_step (t : RouteTable f α) (op : Operation f α) (r : Route f) :
    (t.step op).value.2.get? r = (op.decides r).getD (t.get? r) := by
  cases op with
  | insert s a =>
    rw [Operation.decides]
    refine (get?_insert t s r a).trans ?_
    split <;> rfl
  | remove s =>
    rw [Operation.decides]
    refine (get?_remove t s r).trans ?_
    split <;> rfl
  | clear => exact get?_empty r
  | collect es => exact get?_ofList es r
  | _ => rfl

/-! ## Values after a history -/

/-- A later decision replaces an earlier one. -/
theorem get?_run (t : RouteTable f α) (ops : List (Operation f α)) (r : Route f) :
    (t.run ops).value.2.get? r =
      (ops.reverse.findSome? (Operation.decides r)).getD (t.get? r) := by
  induction ops generalizing t with
  | nil => rfl
  | cons op ops ih =>
    have hstep := get?_step t op r
    simp only [run, Logged.value_bind, Logged.value_pure, List.reverse_cons,
      List.findSome?_append, ih, hstep]
    cases ops.reverse.findSome? (Operation.decides r) with
    | some a => rfl
    | none => cases h : op.decides r <;> simp [h]

theorem get?_after (ops : List (Operation f α)) (r : Route f) :
    (after ops).get? r = lastStored? ops r := by
  rw [after, get?_run, get?_empty, lastStored?]
  cases ops.reverse.findSome? (Operation.decides r) <;> rfl

/-- Collecting entries is storing them one after another in an empty table. -/
theorem ofList_eq_after (es : List (Route f × α)) :
    ofList es = after (es.map fun e => .insert e.1 e.2) := by
  have hrun : ∀ t : RouteTable f α,
      ⟨es.foldl (fun m e => m.insert e.1 e.2) t.routes⟩ =
        (t.run (es.map fun e => .insert e.1 e.2)).value.2 := by
    induction es with
    | nil => exact fun _ => rfl
    | cons e es ih => exact fun t => ih (t.insert e.1 e.2).value.2
  exact hrun empty

/-! ## Entries -/

theorem mem_entries_iff {t : RouteTable f α} {r : Route f} {a : α} :
    (r, a) ∈ t.entries ↔ t.get? r = some a :=
  Std.TreeMap.mem_toList_iff_getElem?_eq_some

theorem mem_keys_iff {t : RouteTable f α} {r : Route f} :
    r ∈ t.keys ↔ ∃ a, t.get? r = some a := by
  constructor
  · intro h
    obtain ⟨e, he, rfl⟩ := List.mem_map.mp h
    exact ⟨e.2, mem_entries_iff.mp he⟩
  · rintro ⟨a, ha⟩
    exact List.mem_map_of_mem (mem_entries_iff.mpr ha)

theorem isEmpty_iff {t : RouteTable f α} : t.isEmpty = true ↔ t.entries = [] := by
  have h : t.entries.isEmpty = t.isEmpty := Std.TreeMap.isEmpty_toList
  rw [← h, List.isEmpty_iff]

theorem entries_pairwise_lt (t : RouteTable f α) :
    t.entries.Pairwise fun e e' => compare e.1 e'.1 = .lt :=
  Std.TreeMap.ordered_keys_toList

theorem entries_nodup_routes (t : RouteTable f α) : (t.entries.map Prod.fst).Nodup := by
  refine List.pairwise_map.mpr ((entries_pairwise_lt t).imp ?_)
  intro e e' hlt heq
  rw [heq, Std.ReflOrd.compare_self] at hlt
  cases hlt

theorem length_entries (t : RouteTable f α) : t.entries.length = t.size :=
  Std.TreeMap.length_toList

/-- The size counts the routes that have a value. -/
theorem size_eq_card (t : RouteTable f α) :
    ∃ present : Finset (Route f), (∀ r, r ∈ present ↔ (t.get? r).isSome) ∧
      t.size = present.card := by
  refine ⟨(t.entries.map Prod.fst).toFinset, ?_, ?_⟩
  · intro r
    rw [List.mem_toFinset, Option.isSome_iff_exists]
    exact mem_keys_iff
  · rw [List.toFinset_card_of_nodup (entries_nodup_routes t), List.length_map, length_entries]

/-! ## Where routes come from -/

theorem mem_stores_of_decides {op : Operation f α} {r : Route f} {a : α}
    (h : op.decides r = some (some a)) : r ∈ op.stores := by
  cases op with
  | insert s b =>
    rw [Operation.decides] at h
    split at h
    next hs => exact List.mem_singleton.mpr hs.symm
    next => cases h
  | collect es =>
    obtain ⟨e, he, -⟩ := Option.map_eq_some_iff.mp (Option.some.inj h)
    have hmem := List.mem_reverse.mp (List.mem_of_find?_eq_some he)
    have hr : decide (e.1 = r) = true := List.find?_some (p := fun e : Route f × α => e.1 = r) he
    exact List.mem_map.mpr ⟨e, hmem, of_decide_eq_true hr⟩
  | remove s =>
    rw [Operation.decides] at h
    split at h <;> cases h
  | _ => cases h

/-- One operation keeps only routes that were there or that it stores. -/
theorem mem_keys_step {t : RouteTable f α} {op : Operation f α} {r : Route f}
    (h : r ∈ (t.step op).value.2.keys) : r ∈ op.stores ∨ r ∈ t.keys := by
  obtain ⟨a, ha⟩ := mem_keys_iff.mp h
  rw [get?_step] at ha
  cases hop : op.decides r with
  | none =>
    rw [hop] at ha
    exact .inr (mem_keys_iff.mpr ⟨a, ha⟩)
  | some decided =>
    rw [hop] at ha
    exact .inl (mem_stores_of_decides (hop.trans (congrArg some ha)))

/-- One operation answers only with routes that were there. -/
theorem mem_keys_of_mem_routes {t : RouteTable f α} {op : Operation f α} {r : Route f}
    (h : r ∈ (t.step op).value.1.routes) : r ∈ t.keys := by
  cases op with
  | lookup a =>
    obtain ⟨e, he, rfl⟩ := Option.map_eq_some_iff.mp (Option.mem_toList.mp h)
    exact List.mem_map_of_mem (List.mem_of_find?_eq_some he)
  | containing a =>
    obtain ⟨e, he, rfl⟩ := List.mem_map.mp h
    exact List.mem_map_of_mem (List.mem_filter.mp he).1
  | entries => exact h
  | _ => cases h

/-- Operation by operation, nothing but what was there or was stored is kept or answered. -/
theorem mem_stores_of_run {t : RouteTable f α} {ops : List (Operation f α)} {r : Route f}
    (h : r ∈ (t.run ops).value.2.keys ∨ ∃ answer ∈ (t.run ops).value.1, r ∈ answer.routes) :
    r ∈ ops.flatMap Operation.stores ∨ r ∈ t.keys := by
  induction ops generalizing t with
  | nil =>
    rcases h with hkept | ⟨_, hanswer, _⟩
    · exact .inr hkept
    · cases hanswer
  | cons op ops ih =>
    rw [List.flatMap_cons, List.mem_append]
    have hparts : r ∈ (t.step op).value.1.routes ∨
        r ∈ ((t.step op).value.2.run ops).value.2.keys ∨
          ∃ answer ∈ ((t.step op).value.2.run ops).value.1, r ∈ answer.routes := by
      rcases h with hkept | ⟨answer, hanswer, hr⟩
      · exact .inr (.inl hkept)
      · rcases List.mem_cons.mp hanswer with rfl | hlater
        · exact .inl hr
        · exact .inr (.inr ⟨answer, hlater, hr⟩)
    rcases hparts with hfirst | hrest
    · exact .inr (mem_keys_of_mem_routes hfirst)
    · rcases ih hrest with hstored | hkept
      · exact .inl (.inr hstored)
      · rcases mem_keys_step hkept with hstored | hbefore
        · exact .inl (.inl hstored)
        · exact .inr hbefore

/-- A history that starts from an empty table shows only routes that it stored. -/
theorem Shows.mem_stores {ops : List (Operation f α)} {r : Route f} (h : Shows ops r) :
    r ∈ ops.flatMap Operation.stores := by
  rcases mem_stores_of_run h with hstored | hempty
  · exact hstored
  · obtain ⟨a, ha⟩ := mem_keys_iff.mp hempty
    rw [get?_empty] at ha
    cases ha

/-! ## Tables with one map -/

/-- Two tables agree if they hold the same value for every route. -/
def Agree (t u : RouteTable f α) : Prop :=
  ∀ r, t.get? r = u.get? r

theorem Agree.equiv {t u : RouteTable f α} (h : Agree t u) : t.routes.Equiv u.routes :=
  Std.TreeMap.Equiv.of_forall_constGet?_eq h

theorem Agree.entries {t u : RouteTable f α} (h : Agree t u) : t.entries = u.entries :=
  h.equiv.toList_eq

theorem Agree.size {t u : RouteTable f α} (h : Agree t u) : t.size = u.size :=
  h.equiv.size_eq

theorem Agree.isEmpty {t u : RouteTable f α} (h : Agree t u) : t.isEmpty = u.isEmpty :=
  h.equiv.isEmpty_eq

/-- Tables that agree answer an operation alike and log the same. -/
theorem Agree.answer_step {t u : RouteTable f α} (h : Agree t u) (op : Operation f α) :
    (t.step op).value.1 = (u.step op).value.1 ∧ (t.step op).log = (u.step op).log := by
  cases op with
  | insert r a => exact ⟨congrArg Answer.value (h r), rfl⟩
  | remove r =>
    refine ⟨congrArg Answer.value (h r), ?_⟩
    simp only [step, remove, Logged.log_bind, Logged.log_pure, h r]
  | get r => exact ⟨congrArg Answer.value (h r), rfl⟩
  | lookup a => simp only [step, lookup, h.entries, Logged.value_bind, Logged.log_bind,
      Logged.value_pure, Logged.log_pure, and_self]
  | containing a => simp only [step, containing, h.entries, Logged.value_pure, Logged.log_pure,
      and_self]
  | entries => exact ⟨congrArg Answer.entries h.entries, rfl⟩
  | size => exact ⟨congrArg Answer.number h.size, rfl⟩
  | isEmpty => exact ⟨congrArg Answer.flag h.isEmpty, rfl⟩
  | _ => exact ⟨rfl, rfl⟩

/-- Tables that agree still agree after an operation. -/
theorem Agree.step {t u : RouteTable f α} (h : Agree t u) (op : Operation f α) :
    Agree (t.step op).value.2 (u.step op).value.2 := by
  intro r
  rw [get?_step, get?_step, h r]

/-- Tables that agree cannot be told apart by any operations. -/
theorem Agree.answers_run {t u : RouteTable f α} (h : Agree t u) (ops : List (Operation f α)) :
    (t.run ops).value.1 = (u.run ops).value.1 ∧ (t.run ops).log = (u.run ops).log := by
  induction ops generalizing t u with
  | nil => exact ⟨rfl, rfl⟩
  | cons op ops ih =>
    obtain ⟨hanswer, hlog⟩ := h.answer_step op
    obtain ⟨hanswers, hlogs⟩ := ih (h.step op)
    simp only [run, Logged.value_bind, Logged.value_pure, Logged.log_bind, Logged.log_pure,
      hanswer, hlog, hanswers, hlogs, and_self]

/-! ## Refinement -/

/-- Whatever history led to a table, it stands for the finite map that the history describes. Its
keys are networks: addresses whose host bits are cleared. -/
theorem after_refines_finite_map (ops : List (Operation f α)) :
    (∀ r, (after ops).get? r = lastStored? ops r) ∧
    (∀ r a, ((after ops).insert r a).value.1 = (after ops).get? r ∧
      ∀ s, ((after ops).insert r a).value.2.get? s =
        if r = s then some a else (after ops).get? s) ∧
    (∀ r, ((after ops).remove r).value.1 = (after ops).get? r ∧
      ∀ s, ((after ops).remove r).value.2.get? s =
        if r = s then none else (after ops).get? s) ∧
    (∃ present : Finset (Route f), (∀ r, r ∈ present ↔ (lastStored? ops r).isSome) ∧
      (after ops).size = present.card) ∧
    (∀ es : List (Route f × α), ofList es = after (es.map fun e => .insert e.1 e.2)) ∧
    (∀ r a, (r, a) ∈ (after ops).entries ↔ lastStored? ops r = some a) ∧
    ((after ops).entries.Pairwise fun e e' => compare e.1 e'.1 = .lt) ∧
    ((after ops).entries.map Prod.fst).Nodup ∧
    (∀ ops', (∀ r, (after ops).get? r = (after ops').get? r) → ∀ later,
      ((after ops).run later).value.1 = ((after ops').run later).value.1 ∧
        ((after ops).run later).log = ((after ops').run later).log) ∧
    (∀ (a b : Address f) (p q : PrefixLength f),
      Route.of a p = Route.of b q ↔ p = q ∧ a.network p = b.network p) ∧
    (∀ (a : Address f) p, (a.network p).value = a.value - a.value % 2 ^ p.hostBits) := by
  refine ⟨get?_after ops, fun r a => ⟨rfl, fun s => get?_insert _ r s a⟩,
    fun r => ⟨rfl, fun s => get?_remove _ r s⟩, ?_, ofList_eq_after, ?_, entries_pairwise_lt _,
    entries_nodup_routes _, fun ops' h later => Agree.answers_run h later,
    fun a b p q => Route.of_eq_of_iff, Address.value_network_eq_sub⟩
  · obtain ⟨present, hpresent, hsize⟩ := size_eq_card (after ops)
    exact ⟨present, fun r => by rw [hpresent, get?_after], hsize⟩
  · intro r a
    rw [mem_entries_iff, get?_after]

end NetLiteral.RouteTable
