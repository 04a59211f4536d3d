import Mathlib.Data.List.Induction
import NetLiteral.Failure

/-!
# Furthest failures

Choosing the furthest of two failures is associative, so failures may be chosen from in groups. What
is chosen from a list is the first of those that got furthest.
-/

namespace NetLiteral.Failure

variable {e e₁ e₂ e₃ : Failure} {es : List Failure}

/-- `e₂` got further than `e₁`: it lies further on, or it found something where `e₁` found nothing. -/
def Behind (e₁ e₂ : Failure) : Prop :=
  e₁.offset < e₂.offset ∨ e₁.offset = e₂.offset ∧ e₁.reason = .empty ∧ e₂.reason ≠ .empty

theorem behind_iff : e₁.Behind e₂ ↔ e₁.rank < e₂.rank :=
  rank_lt_iff.symm

theorem furthest_of_behind (h : e₁.Behind e₂) : e₁.furthest e₂ = e₂ :=
  if_pos (behind_iff.mp h)

theorem furthest_of_not_behind (h : ¬e₁.Behind e₂) : e₁.furthest e₂ = e₁ :=
  if_neg fun hlt => h (behind_iff.mpr hlt)

theorem furthest_eq_iff :
    e₁.furthest e₂ = e ↔ e₁.Behind e₂ ∧ e = e₂ ∨ ¬e₁.Behind e₂ ∧ e = e₁ := by
  by_cases h : e₁.Behind e₂
  · simp [furthest_of_behind h, h, eq_comm]
  · simp [furthest_of_not_behind h, h, eq_comm]

theorem furthest_self (e : Failure) : e.furthest e = e :=
  ite_self e

theorem furthest_assoc (e₁ e₂ e₃ : Failure) :
    (e₁.furthest e₂).furthest e₃ = e₁.furthest (e₂.furthest e₃) := by
  by_cases h₁₂ : e₁.rank < e₂.rank <;> by_cases h₂₃ : e₂.rank < e₃.rank <;>
    simp only [furthest, h₁₂, h₂₃, if_true, if_false]
  · rw [if_pos (Nat.lt_trans h₁₂ h₂₃)]
  · rw [if_neg (by omega)]

/-! ## Lists of failures -/

/-- `e` is the first of those in `es` that got furthest. -/
def IsFurthest (es : List Failure) (e : Failure) : Prop :=
  ∃ before after, es = before ++ e :: after ∧ (∀ e' ∈ before, e'.Behind e) ∧
    ∀ e' ∈ after, ¬e.Behind e'

theorem IsFurthest.not_behind_of_mem (h : IsFurthest es e) (hmem : e₁ ∈ es) : ¬e.Behind e₁ := by
  obtain ⟨before, after, rfl, hbefore, hafter⟩ := h
  rcases List.mem_append.mp hmem with hmem | hmem
  · have hlt := behind_iff.mp (hbefore e₁ hmem)
    rw [behind_iff]
    omega
  · rcases List.mem_cons.mp hmem with rfl | hmem
    · rw [behind_iff]
      exact Nat.lt_irrefl _
    · exact hafter e₁ hmem

theorem isFurthest_singleton (e : Failure) : IsFurthest [e] e :=
  ⟨[], [], rfl, nofun, nofun⟩

/-- Of two lists, the second one is chosen from only if it got further than the first one. -/
theorem IsFurthest.append {es' : List Failure} (h : IsFurthest es e) (h' : IsFurthest es' e₁) :
    IsFurthest (es ++ es') (e.furthest e₁) := by
  by_cases hbehind : e.Behind e₁
  · rw [furthest_of_behind hbehind]
    obtain ⟨before, after, rfl, hbefore, hafter⟩ := h'
    refine ⟨es ++ before, after, by simp, ?_, hafter⟩
    refine List.forall_mem_append.mpr ⟨?_, hbefore⟩
    intro e' he'
    have hlt := behind_iff.mp hbehind
    have hle := mt behind_iff.mpr (h.not_behind_of_mem he')
    exact behind_iff.mpr (by omega)
  · rw [furthest_of_not_behind hbehind]
    obtain ⟨before, after, rfl, hbefore, hafter⟩ := h
    refine ⟨before, after ++ es', by simp, hbefore, ?_⟩
    refine List.forall_mem_append.mpr ⟨hafter, ?_⟩
    intro e' he'
    have hle := mt behind_iff.mpr hbehind
    have hle' := mt behind_iff.mpr (h'.not_behind_of_mem he')
    exact mt behind_iff.mp (by omega)

theorem isFurthest_foldl (e : Failure) (es : List Failure) :
    IsFurthest (e :: es) (es.foldl furthest e) := by
  induction es using List.reverseRecOn with
  | nil => exact isFurthest_singleton e
  | append_singleton es e' ih =>
    rw [List.foldl_append]
    exact ih.append (isFurthest_singleton e')

theorem IsFurthest.mem (h : IsFurthest es e) : e ∈ es := by
  obtain ⟨before, after, rfl, -, -⟩ := h
  exact List.mem_append_right before List.mem_cons_self

theorem IsFurthest.unique (h₁ : IsFurthest es e₁) (h₂ : IsFurthest es e₂) : e₁ = e₂ := by
  have hnot₁ : ¬e₁.Behind e₂ := h₁.not_behind_of_mem h₂.mem
  have hnot₂ : ¬e₂.Behind e₁ := h₂.not_behind_of_mem h₁.mem
  obtain ⟨before₁, after₁, rfl, hbefore₁, -⟩ := h₁
  obtain ⟨before₂, after₂, heq, hbefore₂, -⟩ := h₂
  -- Of two places in the list, the earlier one holds a failure behind that of the later one.
  rcases List.append_eq_append_iff.mp heq with ⟨between, rfl, hrest⟩ | ⟨between, rfl, hrest⟩
  · cases between with
    | nil => exact (List.cons.inj hrest).1
    | cons e' between =>
      cases (List.cons.inj hrest).1
      exact absurd (hbefore₂ e₁ (by simp)) hnot₁
  · cases between with
    | nil => exact (List.cons.inj hrest).1.symm
    | cons e' between =>
      cases (List.cons.inj hrest).1
      exact absurd (hbefore₁ e₂ (by simp)) hnot₂

theorem isFurthest_cons_iff : IsFurthest (e :: es) e₁ ↔ es.foldl furthest e = e₁ := by
  constructor
  · exact fun h => (isFurthest_foldl e es).unique h
  · rintro rfl
    exact isFurthest_foldl e es

theorem furthestOf_eq_some_iff : furthestOf es = some e ↔ IsFurthest es e := by
  cases es with
  | nil => simp [furthestOf, IsFurthest]
  | cons e' es => rw [furthestOf, Option.some.injEq, isFurthest_cons_iff]

end NetLiteral.Failure
