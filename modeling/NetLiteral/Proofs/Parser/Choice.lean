import NetLiteral.Proofs.Failure
import NetLiteral.Proofs.Parser.Progress

/-!
# Choices that fail

A choice of readers fails exactly if all of them do, with the first of the furthest failures. A
choice that begins with another choice from the same failure may be flattened.
-/

namespace NetLiteral.Parser

variable {α β : Type} {ps : List (Parser α)} {e e₁ : Failure} {es : List Failure} {c d : Cursor}

/-- At `c` the parsers of `ps` refuse, each with its failure of `es`. -/
def RefuseAs (ps : List (Parser α)) (c : Cursor) (es : List Failure) : Prop :=
  List.Forall₂ (fun p e => p.eval c = (.error e, c)) ps es

theorem RefuseAs.eval_choice (h : RefuseAs ps c es) (e : Failure) :
    (choice e ps).eval c = (.error (es.foldl Failure.furthest e), c) := by
  induction h generalizing e with
  | nil => rfl
  | cons hp _ ih =>
    rw [eval_choice_of_error hp]
    exact ih _

theorem refuseAs_of_eval_choice (hps : ∀ p ∈ ps, p.Orderly)
    (h : (choice e ps).eval c = (.error e₁, d)) : ∃ es, RefuseAs ps c es := by
  induction ps generalizing e with
  | nil => exact ⟨[], .nil⟩
  | cons p ps ih =>
    obtain ⟨hp, hps⟩ := List.forall_mem_cons.mp hps
    rcases hp c with ⟨a, c', heval, -⟩ | ⟨e₂, heval, -⟩
    · rw [eval_choice_of_ok heval] at h
      cases h
    · rw [eval_choice_of_error heval] at h
      obtain ⟨es, hes⟩ := ih hps h
      exact ⟨e₂ :: es, .cons heval hes⟩

theorem eval_choice_eq_error_iff (hps : ∀ p ∈ ps, p.Orderly) :
    (choice e ps).eval c = (.error e₁, d) ↔
      d = c ∧ ∃ es, RefuseAs ps c es ∧ Failure.IsFurthest (e :: es) e₁ := by
  constructor
  · intro h
    obtain ⟨es, hes⟩ := refuseAs_of_eval_choice hps h
    rw [hes.eval_choice] at h
    cases h
    exact ⟨rfl, es, hes, Failure.isFurthest_foldl e es⟩
  · rintro ⟨rfl, es, hes, he⟩
    rw [hes.eval_choice, Failure.isFurthest_cons_iff.mp he]

/-! ## Nested choices -/

theorem eval_map_choice (g : α → β) (e : Failure) (ps : List (Parser α)) (c : Cursor) :
    (g <$> choice e ps).eval c = (choice e (ps.map (g <$> ·))).eval c := by
  induction ps generalizing e c with
  | nil => rfl
  | cons p ps ih =>
    rw [List.map_cons]
    rcases hp : p.eval c with ⟨e' | a, d⟩
    · have hmap : (g <$> p).eval c = (.error e', d) := by
        rw [eval_map, hp]
        rfl
      rw [eval_choice_of_error hmap, ← ih, eval_map, eval_choice_of_error hp, ← eval_map]
    · rw [eval_choice_of_ok (eval_map_of_ok hp g), eval_map, eval_choice_of_ok hp]
      rfl

/-- The inner choice begins with a failure at least as far as that of the outer one. -/
theorem eval_choice_choice (hps : ∀ p ∈ ps, p.Orderly) (h : e.furthest e₁ = e₁)
    (qs : List (Parser α)) (c : Cursor) :
    (choice e (choice e₁ ps :: qs)).eval c = (choice e₁ (ps ++ qs)).eval c := by
  induction ps generalizing e₁ with
  | nil =>
    have hnil : (choice e₁ ([] : List (Parser α))).eval c = (.error e₁, c) := rfl
    rw [eval_choice_of_error hnil, h, List.nil_append]
  | cons p ps ih =>
    obtain ⟨hp, hps⟩ := List.forall_mem_cons.mp hps
    rw [List.cons_append]
    rcases hp c with ⟨a, d, heval, -⟩ | ⟨e₂, heval, -⟩
    · rw [eval_choice_of_ok (eval_choice_of_ok heval _ _), eval_choice_of_ok heval]
    · have hfurther : e.furthest (e₁.furthest e₂) = e₁.furthest e₂ := by
        rw [← Failure.furthest_assoc, h]
      rw [eval_choice_cons, eval_choice_of_error heval, ← eval_choice_cons, ih hps hfurther,
        eval_choice_of_error heval]

/-- A parser that chooses from `ps` may itself be one of several alternatives. -/
theorem eval_choice_group {p : Parser α} {qs : List (Parser β)} (hps : ∀ p ∈ ps, p.Orderly)
    (hp : p.eval c = (choice e ps).eval c) (g : α → β) :
    (choice e (g <$> p :: qs)).eval c = (choice e (ps.map (g <$> ·) ++ qs)).eval c := by
  have hmap : (g <$> p).eval c = (choice e (ps.map (g <$> ·))).eval c := by
    rw [← eval_map_choice, eval_map, eval_map, hp]
  have hmapped : ∀ q ∈ ps.map (g <$> ·), q.Orderly := by
    intro q hq
    obtain ⟨p', hp', rfl⟩ := List.mem_map.mp hq
    exact (hps p' hp').map g
  rw [eval_choice_cons, hmap, ← eval_choice_cons,
    eval_choice_choice hmapped (Failure.furthest_self e)]

end NetLiteral.Parser
