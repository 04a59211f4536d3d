import NetLiteral.Proofs.Bytes.Encoding
import NetLiteral.Proofs.Failure
import NetLiteral.Proofs.Parser.Reads

/-!
# Text before the cursor

More text before the cursor moves every offset and changes nothing else. Two parsers are compared,
one on a text and one on the text with more before it, since what they are told of offsets differs.
-/

namespace NetLiteral

/-! ## Places and failures further on -/

/-- The same place with `before` in front of the text. -/
def Cursor.preceded (before : Bytes) (c : Cursor) : Cursor :=
  ⟨before ++ c.consumed, c.unread⟩

/-- The same failure `n` bytes further on. -/
def Failure.shift (n : Nat) (e : Failure) : Failure :=
  { e with offset := n + e.offset }

namespace Cursor

variable (before : Bytes) (c : Cursor)

@[simp] theorem position_preceded : (c.preceded before).position = before.length + c.position :=
  List.length_append

theorem input_preceded : (c.preceded before).input = before ++ c.input :=
  List.append_assoc _ _ _

@[simp] theorem run_preceded (m : UInt8 → Bool) : (c.preceded before).run m = c.run m :=
  rfl

@[simp] theorem advance_preceded (n : Nat) :
    (c.preceded before).advance n = (c.advance n).preceded before := by
  simp [preceded, advance]

@[simp] theorem since_preceded (start : Nat) :
    (c.preceded before).since (before.length + start) = c.since start := by
  simp [preceded, since]

theorem eat?_preceded (b : UInt8) :
    (c.preceded before).eat? b = (c.eat? b).map (preceded before) := by
  obtain ⟨consumed, _ | ⟨x, rest⟩⟩ := c
  · rfl
  · by_cases hx : x = b <;> simp [preceded, eat?, hx]

variable {c} in
theorem OnBoundary.preceded (h : c.OnBoundary) (s : String) :
    (c.preceded (Bytes.ofString s)).OnBoundary := by
  obtain ⟨before, after, hbefore, hafter⟩ := h
  refine ⟨s ++ before, after, ?_, hafter⟩
  rw [Bytes.ofString_append, ← hbefore, Cursor.preceded]

end Cursor

theorem Failure.shift_furthest (n : Nat) (e₁ e₂ : Failure) :
    (e₁.shift n).furthest (e₂.shift n) = (e₁.furthest e₂).shift n := by
  have hshift : (e₁.shift n).Behind (e₂.shift n) ↔ e₁.Behind e₂ := by simp [Behind, shift]
  by_cases h : e₁.Behind e₂
  · rw [furthest_of_behind h, furthest_of_behind (hshift.mpr h)]
  · rw [furthest_of_not_behind h, furthest_of_not_behind (mt hshift.mp h)]

namespace Parser

variable {α β : Type} {before : Bytes}

/-- Where `before` precedes the text, `q` does what `p` does without it: the value is the same, a
failure is shifted, and the cursor has `before` in front of it. -/
def Shifts (before : Bytes) (p q : Parser α) : Prop :=
  ∀ c, q.eval (c.preceded before) =
    ((p.eval c).1.mapError (Failure.shift before.length), (p.eval c).2.preceded before)

namespace Shifts

variable {p q : Parser α}

theorem eval_of_ok (h : Shifts before p q) {c c' : Cursor} {a : α} (hp : p.eval c = (.ok a, c')) :
    q.eval (c.preceded before) = (.ok a, c'.preceded before) := by
  rw [h c, hp]
  rfl

theorem eval_of_error (h : Shifts before p q) {c c' : Cursor} {e : Failure}
    (hp : p.eval c = (.error e, c')) :
    q.eval (c.preceded before) = (.error (e.shift before.length), c'.preceded before) := by
  rw [h c, hp]
  rfl

/-! ## Primitives -/

theorem pure (a : α) : Shifts before (Pure.pure a) (Pure.pure a) :=
  fun _ => rfl

theorem fail (e : Failure) :
    Shifts before (Parser.fail e : Parser α) (Parser.fail (e.shift before.length)) :=
  fun _ => rfl

theorem peek : Shifts before Parser.peek Parser.peek :=
  fun _ => rfl

theorem takeWhile (m : UInt8 → Bool) : Shifts before (Parser.takeWhile m) (Parser.takeWhile m) := by
  intro c
  simp [Except.mapError]

theorem eat (b : UInt8) : Shifts before (Parser.eat b) (Parser.eat b) := by
  intro c
  rw [eval_eat, eval_eat, c.eat?_preceded before]
  cases c.eat? b <;> rfl

theorem expect (b : UInt8) (literal : Literal) :
    Shifts before (Parser.expect b literal) (Parser.expect b literal) := by
  intro c
  rw [eval_expect, eval_expect, c.eat?_preceded before]
  cases c.eat? b with
  | none => simp [Except.mapError, Failure.shift]
  | some d => rfl

/-! ## Combinators -/

theorem bind {f g : α → Parser β} (h : Shifts before p q) (hf : ∀ a, Shifts before (f a) (g a)) :
    Shifts before (p >>= f) (q >>= g) := by
  intro c
  rcases hp : p.eval c with ⟨e | a, d⟩
  · rw [eval_bind, h.eval_of_error hp, eval_bind, hp]
    rfl
  · rw [eval_bind_of_ok (h.eval_of_ok hp), eval_bind_of_ok hp]
    exact hf a d

theorem map (h : Shifts before p q) (g : α → β) : Shifts before (g <$> p) (g <$> q) :=
  h.bind fun a => pure (g a)

theorem position {f g : Nat → Parser α}
    (hf : ∀ start, Shifts before (f start) (g (before.length + start))) :
    Shifts before (Parser.position >>= f) (Parser.position >>= g) := by
  intro c
  rw [eval_bind_of_ok (eval_position _), eval_bind_of_ok (eval_position _), c.position_preceded]
  exact hf c.position c

theorem attempt (h : Shifts before p q) : Shifts before p.attempt q.attempt := by
  intro c
  rw [eval_attempt, eval_attempt]
  rcases hp : p.eval c with ⟨e | a, d⟩
  · rw [h.eval_of_error hp]
    rfl
  · rw [h.eval_of_ok hp]
    rfl

/-- The bytes that a value is read from do not change. -/
theorem recognize (h : Shifts before p q) : Shifts before p.recognize q.recognize := by
  intro c
  rw [eval_recognize, eval_recognize]
  rcases hp : p.eval c with ⟨e | a, d⟩
  · rw [h.eval_of_error hp]
    rfl
  · rw [h.eval_of_ok hp]
    simp [Except.mapError]

theorem mapFailure (h : Shifts before p q) {g : Failure → Failure}
    (hg : ∀ n e, g (e.shift n) = (g e).shift n) :
    Shifts before (p.mapFailure g) (q.mapFailure g) := by
  intro c
  rcases hp : p.eval c with ⟨e | a, d⟩
  · rw [eval_mapFailure, h.eval_of_error hp, eval_mapFailure, hp]
    simp [Except.mapError, hg]
  · rw [eval_mapFailure, h.eval_of_ok hp, eval_mapFailure, hp]
    rfl

theorem onFailure (h : Shifts before p q) (report report' : Failure → Log.Record) :
    Shifts before (p.onFailure report) (q.onFailure report') := by
  intro c
  rw [eval_onFailure, eval_onFailure]
  exact h c

theorem choice {ps qs : List (Parser α)} (h : List.Forall₂ (Shifts before) ps qs) (e : Failure) :
    Shifts before (Parser.choice e ps) (Parser.choice (e.shift before.length) qs) := by
  induction h generalizing e with
  | nil => exact fail e
  | @cons p q _ _ hp _ ih =>
    intro c
    rcases heval : p.eval c with ⟨e' | a, d⟩
    · rw [eval_choice_of_error (hp.eval_of_error heval), eval_choice_of_error heval,
        Failure.shift_furthest]
      exact ih _ d
    · rw [eval_choice_of_ok (hp.eval_of_ok heval), eval_choice_of_ok heval]
      rfl

end Shifts

end Parser

end NetLiteral
