import NetLiteral.Proofs.Parser.Progress

/-!
# Texts read as a whole

A parser accepts a text as a value if it gives that value at the start of the text and leaves
nothing unread. A choice of readers accepts what one of them accepts, as long as the readers before
that one refuse the text.
-/

namespace NetLiteral.Parser

variable {α β : Type} {p : Parser α} {a : α} {text : Bytes}

/-- `p` reads the whole of `text` as `a`. -/
def Accepts (p : Parser α) (text : Bytes) (a : α) : Prop :=
  ∃ d, p.eval (.ofBytes text) = (.ok a, d) ∧ d.unread = []

theorem value_parseAll_of_error {literal : Literal} {e : Failure} {d : Cursor}
    (h : p.eval (.ofBytes text) = (.error e, d)) : (parseAll literal p text).value = .error e := by
  rw [value_parseAll, eval_bind, h]

theorem value_parseAll_of_ok {literal : Literal} {d : Cursor}
    (h : p.eval (.ofBytes text) = (.ok a, d)) : (parseAll literal p text).value =
      if d.isAtEnd then .ok a else .error ⟨literal, d.position, .trailing⟩ := by
  rw [value_parseAll, eval_bind_of_ok h, eval_bind, eval_finish]
  cases d.isAtEnd <;> rfl

theorem value_parseAll_eq_ok_iff {literal : Literal} :
    (parseAll literal p text).value = .ok a ↔ p.Accepts text a := by
  constructor
  · intro h
    rcases heval : p.eval (.ofBytes text) with ⟨e | a', d⟩
    · rw [value_parseAll_of_error heval] at h
      cases h
    · rw [value_parseAll_of_ok heval] at h
      split at h
      next hend =>
        cases h
        exact ⟨d, heval, List.isEmpty_iff.mp hend⟩
      next => cases h
  · rintro ⟨d, heval, hend⟩
    have hatEnd : d.isAtEnd = true := List.isEmpty_iff.mpr hend
    rw [value_parseAll_of_ok heval, if_pos hatEnd]

namespace Accepts

theorem not_refuses (h : p.Accepts text a) : ¬p.Refuses (.ofBytes text) := by
  rintro ⟨e, he⟩
  obtain ⟨d, heval, _⟩ := h
  rw [he] at heval
  cases heval

theorem map_iff {g : α → β} {b : β} :
    (g <$> p).Accepts text b ↔ ∃ a, p.Accepts text a ∧ g a = b := by
  constructor
  · rintro ⟨d, heval, hend⟩
    obtain ⟨a, ha, hg⟩ := eval_map_eq_ok heval
    exact ⟨a, ⟨d, ha, hend⟩, hg⟩
  · rintro ⟨a, ⟨d, heval, hend⟩, rfl⟩
    exact ⟨d, by rw [eval_map, heval]; rfl, hend⟩

end Accepts

theorem Reads.accepts {m : UInt8 → Bool} (h : p.Reads m text a) : p.Accepts text a := by
  have heval := h [] [] EndsRun.nil
  rw [List.append_nil, List.nil_append] at heval
  exact ⟨_, heval, rfl⟩

/-! ## Choices -/

/-- A later reader is reached if all before it refuse the texts that it accepts. -/
theorem Accepts.choice {ps : List (Parser α)}
    (hps : ps.Pairwise fun q p => ∀ a, p.Accepts text a → q.Refuses (.ofBytes text))
    (hp : p ∈ ps) (ha : p.Accepts text a) (e : Failure) : (choice e ps).Accepts text a := by
  induction ps generalizing e with
  | nil => cases hp
  | cons q ps ih =>
    obtain ⟨hq, hps⟩ := List.pairwise_cons.mp hps
    rcases List.mem_cons.mp hp with rfl | hp
    · obtain ⟨d, heval, hend⟩ := ha
      exact ⟨d, by rw [eval_choice_cons, heval], hend⟩
    · obtain ⟨e', he'⟩ := hq p hp a ha
      obtain ⟨d, heval, hend⟩ := ih hps hp (e.furthest e')
      exact ⟨d, by rw [eval_choice_cons, he']; exact heval, hend⟩

theorem choice_accepts_iff {ps : List (Parser α)} (horderly : ∀ p ∈ ps, p.Orderly)
    (hps : ps.Pairwise fun q p => ∀ a, p.Accepts text a → q.Refuses (.ofBytes text))
    (literal : Literal) (reason : Reason) :
    (position >>= fun start => choice ⟨literal, start, reason⟩ ps).Accepts text a ↔
      ∃ p ∈ ps, p.Accepts text a := by
  have heval := eval_bind_of_ok (eval_position (.ofBytes text))
    fun start => choice ⟨literal, start, reason⟩ ps
  rw [Accepts, heval, ← Accepts]
  constructor
  · rintro ⟨d, hchoice, hend⟩
    obtain ⟨p, hp, hread⟩ := eval_choice_eq_ok horderly hchoice
    exact ⟨p, hp, d, hread, hend⟩
  · rintro ⟨p, hp, ha⟩
    exact ha.choice hps hp _

end NetLiteral.Parser
