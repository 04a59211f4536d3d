import NetLiteral.Parser

/-!
# Running parsers

What a parser does to its caller is the value or failure it gives and the cursor it leaves. One
equation for each primitive and combinator says what that is, so a parser is run by rewriting. The
records of a run depend on these two and are left out.
-/

namespace NetLiteral.Parser

variable {α β : Type}

/-- The value or failure that a parser gives, and the cursor it leaves. -/
def eval (p : Parser α) (c : Cursor) : Except Failure α × Cursor :=
  ((p c).result, (p c).cursor)

/-! ## Primitives -/

@[simp] theorem eval_pure (a : α) (c : Cursor) : (pure a : Parser α).eval c = (.ok a, c) :=
  rfl

@[simp] theorem eval_fail (e : Failure) (c : Cursor) :
    (fail e : Parser α).eval c = (.error e, c) :=
  rfl

@[simp] theorem eval_position (c : Cursor) : position.eval c = (.ok c.position, c) :=
  rfl

@[simp] theorem eval_peek (c : Cursor) : peek.eval c = (.ok c.peek, c) :=
  rfl

@[simp] theorem eval_takeWhile (isMember : UInt8 → Bool) (c : Cursor) :
    (takeWhile isMember).eval c = (.ok (c.run isMember), c.advance (c.run isMember).length) :=
  rfl

theorem eval_eat (b : UInt8) (c : Cursor) :
    (eat b).eval c = match c.eat? b with
      | some c' => (.ok true, c')
      | none => (.ok false, c) := by
  rw [eval, eat]
  cases c.eat? b <;> rfl

theorem eval_expect (b : UInt8) (literal : Literal) (c : Cursor) :
    (expect b literal).eval c = match c.eat? b with
      | some c' => (.ok (), c')
      | none => (.error ⟨literal, c.position, .expected (Char.ofUInt8 b)⟩, c) := by
  rw [eval, expect]
  cases c.eat? b <;> rfl

theorem eval_finish (literal : Literal) (c : Cursor) :
    (finish literal).eval c =
      (if c.isAtEnd then .ok () else .error ⟨literal, c.position, .trailing⟩, c) := by
  rw [eval, finish]
  cases c.isAtEnd <;> rfl

/-! ## Combinators -/

theorem eval_bind (p : Parser α) (f : α → Parser β) (c : Cursor) :
    (p >>= f).eval c = match p.eval c with
      | (.ok a, c') => (f a).eval c'
      | (.error e, c') => (.error e, c') := by
  change (andThen p f).eval c = _
  simp only [eval, andThen]
  rcases p c with ⟨e | a, c', log⟩ <;> rfl

theorem eval_bind_of_ok {p : Parser α} {c c' : Cursor} {a : α}
    (h : p.eval c = (.ok a, c')) (f : α → Parser β) : (p >>= f).eval c = (f a).eval c' := by
  rw [eval_bind, h]

theorem eval_map (f : α → β) (p : Parser α) (c : Cursor) :
    (f <$> p).eval c = ((p.eval c).1.map f, (p.eval c).2) := by
  change (p >>= fun a => pure (f a)).eval c = _
  rw [eval_bind]
  rcases p.eval c with ⟨e | a, c'⟩ <;> rfl

theorem eval_map_of_ok {p : Parser α} {c c' : Cursor} {a : α} (h : p.eval c = (.ok a, c'))
    (f : α → β) : (f <$> p).eval c = (.ok (f a), c') := by
  rw [eval_map, h]
  rfl

theorem eval_attempt (p : Parser α) (c : Cursor) :
    p.attempt.eval c = match p.eval c with
      | (.ok a, c') => (.ok a, c')
      | (.error e, _) => (.error e, c) := by
  simp only [eval, attempt]
  rcases p c with ⟨e | a, c', log⟩ <;> rfl

theorem eval_attempt_of_ok {p : Parser α} {c c' : Cursor} {a : α}
    (h : p.eval c = (.ok a, c')) : p.attempt.eval c = (.ok a, c') := by
  rw [eval_attempt, h]

/-- The records of an attempt are those of the attempt with its text. -/
theorem recognize_apply (p : Parser α) (c : Cursor) :
    p.recognize c =
      ⟨(p.attempt c).result.map fun a => (a, (p.attempt c).cursor.since c.position),
        (p.attempt c).cursor, (p.attempt c).log⟩ := by
  change (position.andThen fun start => p.attempt.andThen fun a =>
    (since start).andThen fun bs => succeed (a, bs)) c = _
  simp only [andThen, position, since, succeed]
  rcases p.attempt c with ⟨e | a, c', log⟩ <;> simp [Except.map]

theorem eval_recognize (p : Parser α) (c : Cursor) :
    p.recognize.eval c = match p.eval c with
      | (.ok a, c') => (.ok (a, c'.since c.position), c')
      | (.error e, _) => (.error e, c) := by
  rw [eval, recognize_apply, attempt, eval]
  rcases p c with ⟨e | a, c', log⟩ <;> rfl

@[simp] theorem eval_mapFailure (f : Failure → Failure) (p : Parser α) (c : Cursor) :
    (p.mapFailure f).eval c = ((p.eval c).1.mapError f, (p.eval c).2) :=
  rfl

@[simp] theorem eval_onFailure (p : Parser α) (report : Failure → Log.Record) (c : Cursor) :
    (p.onFailure report).eval c = p.eval c := by
  simp only [eval, onFailure]
  rcases p c with ⟨e | a, c', log⟩ <;> rfl

theorem eval_choice_cons (e : Failure) (p : Parser α) (ps : List (Parser α)) (c : Cursor) :
    (choice e (p :: ps)).eval c = match p.eval c with
      | (.ok a, c') => (.ok a, c')
      | (.error e', c') => (choice (e.furthest e') ps).eval c' := by
  simp only [eval, choice]
  rcases p c with ⟨e' | a, c', log⟩ <;> rfl

theorem eval_choice_of_ok {p : Parser α} {c c' : Cursor} {a : α} (h : p.eval c = (.ok a, c'))
    (e : Failure) (ps : List (Parser α)) : (choice e (p :: ps)).eval c = (.ok a, c') := by
  rw [eval_choice_cons, h]

theorem eval_choice_of_error {p : Parser α} {c c' : Cursor} {e' : Failure}
    (h : p.eval c = (.error e', c')) (e : Failure) (ps : List (Parser α)) :
    (choice e (p :: ps)).eval c = (choice (e.furthest e') ps).eval c' := by
  rw [eval_choice_cons, h]

theorem value_parseAll (literal : Literal) (p : Parser α) (text : Bytes) :
    (parseAll literal p text).value =
      ((do let a ← p; finish literal; return a : Parser α).eval (.ofBytes text)).1 :=
  rfl

end NetLiteral.Parser
