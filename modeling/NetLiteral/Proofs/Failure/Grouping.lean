import NetLiteral.Proofs.Failure

/-!
# Groups of failures

Alternatives may have alternatives of their own, so failures are chosen from in groups. However they
are grouped, the choice is the first of all those that got furthest, and a failure that is behind it
may be added anywhere.
-/

namespace NetLiteral.Failure

variable {e e₁ e₂ : Failure} {before after : List Failure}

/-! ## Groups -/

/-- Failures in groups, each of which is chosen from before it is compared with its neighbour. -/
inductive Grouping
  | single (e : Failure)
  | join (left right : Grouping)

namespace Grouping

/-- The failures of all groups, in order. -/
def failures : Grouping → List Failure
  | single e => [e]
  | join left right => left.failures ++ right.failures

/-- The failure that is left when every group has been chosen from. -/
def chosen : Grouping → Failure
  | single e => e
  | join left right => left.chosen.furthest right.chosen

theorem isFurthest_chosen (g : Grouping) : IsFurthest g.failures g.chosen := by
  induction g with
  | single e => exact isFurthest_singleton e
  | join left right ihl ihr => exact ihl.append ihr

end Grouping

/-! ## Failures behind the chosen one -/

theorem Behind.asymm (h : e₁.Behind e₂) : ¬e₂.Behind e₁ := by
  rw [behind_iff] at h ⊢
  omega

theorem IsFurthest.insert (h : IsFurthest (before ++ after) e) (hbehind : e₁.Behind e) :
    IsFurthest (before ++ e₁ :: after) e := by
  obtain ⟨front, back, heq, hfront, hback⟩ := h
  -- The new failure stands before the chosen one or after it.
  rcases List.append_eq_append_iff.mp heq with ⟨between, rfl, rfl⟩ | ⟨between, rfl, hrest⟩
  · refine ⟨before ++ e₁ :: between, back, by simp, ?_, hback⟩
    obtain ⟨hbefore, hbetween⟩ := List.forall_mem_append.mp hfront
    exact List.forall_mem_append.mpr ⟨hbefore, List.forall_mem_cons.mpr ⟨hbehind, hbetween⟩⟩
  · cases between with
    | nil =>
      rw [List.nil_append] at hrest
      subst hrest
      refine ⟨front ++ [e₁], back, by simp, ?_, hback⟩
      exact List.forall_mem_append.mpr ⟨hfront, List.forall_mem_singleton.mpr hbehind⟩
    | cons e' between =>
      obtain ⟨rfl, rfl⟩ := List.cons.inj hrest
      refine ⟨front, between ++ e₁ :: after, by simp, hfront, ?_⟩
      obtain ⟨hbetween, hafter⟩ := List.forall_mem_append.mp hback
      exact List.forall_mem_append.mpr
        ⟨hbetween, List.forall_mem_cons.mpr ⟨hbehind.asymm, hafter⟩⟩

/-! ## Groups and additions together -/

/-- Choosing is associative. Choosing from a list one by one leaves a failure of the list that none
of it got further than, and the first such one; so does choosing in groups. A failure behind the
chosen one changes nothing, wherever it stands. -/
theorem furthest_grouped_freely :
    (∀ e₁ e₂ e₃ : Failure, (e₁.furthest e₂).furthest e₃ = e₁.furthest (e₂.furthest e₃)) ∧
    (∀ (e : Failure) (es : List Failure),
      es.foldl furthest e ∈ e :: es ∧ ∀ e' ∈ e :: es, ¬(es.foldl furthest e).Behind e') ∧
    (∀ (e : Failure) (es : List Failure) (chosen : Failure), es.foldl furthest e = chosen ↔
      ∃ before after, e :: es = before ++ chosen :: after ∧
        (∀ e' ∈ before, e'.Behind chosen) ∧ ∀ e' ∈ after, ¬chosen.Behind e') ∧
    (∀ g : Grouping, furthestOf g.failures = some g.chosen) ∧
    (∀ (before after : List Failure) (chosen e : Failure),
      furthestOf (before ++ after) = some chosen → e.Behind chosen →
        furthestOf (before ++ e :: after) = some chosen) := by
  refine ⟨furthest_assoc, ?_, ?_, ?_, ?_⟩
  · intro e es
    have h := isFurthest_foldl e es
    exact ⟨h.mem, fun e' => h.not_behind_of_mem⟩
  · intro e es chosen
    exact isFurthest_cons_iff.symm
  · intro g
    exact furthestOf_eq_some_iff.mpr g.isFurthest_chosen
  · intro before after chosen e h hbehind
    have hchosen := furthestOf_eq_some_iff.mp h
    exact furthestOf_eq_some_iff.mpr (hchosen.insert hbehind)

theorem furthest_grouped_freely_between :
    furthestOf ([⟨.ipv4, 0, .empty⟩] ++ [⟨.port, 6, .empty⟩]) = some ⟨.port, 6, .empty⟩ ∧
    Behind ⟨.hostname, 0, .malformed⟩ ⟨.port, 6, .empty⟩ ∧
    furthestOf ([⟨.ipv4, 0, .empty⟩] ++ ⟨.hostname, 0, .malformed⟩ :: [⟨.port, 6, .empty⟩]) =
      some ⟨.port, 6, .empty⟩ := by
  have hchosen : furthestOf ([⟨.ipv4, 0, .empty⟩] ++ [⟨.port, 6, .empty⟩]) =
      some ⟨.port, 6, .empty⟩ := by decide
  have hbehind : Behind ⟨.hostname, 0, .malformed⟩ ⟨.port, 6, .empty⟩ := .inl (by decide)
  exact ⟨hchosen, hbehind, furthest_grouped_freely.2.2.2.2 _ _ _ _ hchosen hbehind⟩

end NetLiteral.Failure
