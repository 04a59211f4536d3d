import NetLiteral.Proofs.Cursor.Reach
import NetLiteral.Proofs.Parser.Reads

/-!
# Progress of parsers

Inside an attempt a parser only goes on over ASCII bytes, and fails no further back than where it
began. A reader of a literal is such a parser that also gives everything back when it fails and
consumes something when it succeeds. Both properties pass from parts to the whole.
-/

namespace NetLiteral.Parser

variable {α β : Type} {p : Parser α} {f : α → Parser β} {c c' : Cursor} {e : Failure} {a : α}
  {b : β}

/-! ## Runs of a sequence -/

theorem eval_bind_eq_ok (h : (p >>= f).eval c = (.ok b, c')) :
    ∃ a d, p.eval c = (.ok a, d) ∧ (f a).eval d = (.ok b, c') := by
  rw [eval_bind] at h
  rcases hp : p.eval c with ⟨e | a, d⟩
  · rw [hp] at h
    cases h
  · rw [hp] at h
    exact ⟨a, d, rfl, h⟩

theorem eval_bind_eq_error (h : (p >>= f).eval c = (.error e, c')) :
    p.eval c = (.error e, c') ∨ ∃ a d, p.eval c = (.ok a, d) ∧ (f a).eval d = (.error e, c') := by
  rw [eval_bind] at h
  rcases hp : p.eval c with ⟨e' | a, d⟩
  · rw [hp] at h
    cases h
    exact .inl rfl
  · rw [hp] at h
    exact .inr ⟨a, d, rfl, h⟩

theorem eval_map_eq_ok {g : α → β} (h : (g <$> p).eval c = (.ok b, c')) :
    ∃ a, p.eval c = (.ok a, c') ∧ g a = b := by
  obtain ⟨a, d, ha, hpure⟩ := eval_bind_eq_ok h
  cases hpure
  exact ⟨a, ha, rfl⟩

theorem eval_attempt_eq_ok (h : p.attempt.eval c = (.ok a, c')) : p.eval c = (.ok a, c') := by
  rw [eval_attempt] at h
  rcases hp : p.eval c with ⟨e | a', d⟩
  · rw [hp] at h
    cases h
  · rw [hp] at h
    exact h

/-- The bytes that come with a value are those consumed for it. -/
theorem since_of_eval_recognize {bs : Bytes} (h : p.recognize.eval c = (.ok (a, bs), c')) :
    bs = c'.since c.position := by
  rw [eval_recognize] at h
  rcases hp : p.eval c with ⟨e | a', d⟩ <;> rw [hp] at h <;> cases h
  rfl

theorem passes_of_eval_expect {x : UInt8} {literal : Literal} {u : Unit}
    (h : (expect x literal).eval c = (.ok u, c')) : c.Passes [x] c' := by
  rw [eval_expect] at h
  cases hc : c.eat? x with
  | none =>
    rw [hc] at h
    cases h
  | some d =>
    rw [hc] at h
    cases h
    exact Cursor.passes_of_eat? hc

/-! ## Going forward -/

/-- Whatever it comes to, `p` only goes on, and a failure lies where it could have gone on to. -/
structure Forward (p : Parser α) : Prop where
  reaches : ∀ c : Cursor, c.Reaches (p.eval c).2
  failure : ∀ {c c' : Cursor} {e}, p.eval c = (.error e, c') →
    ∃ d, c.Reaches d ∧ d.position = e.offset

namespace Forward

theorem reaches_of_eval (hp : p.Forward) {r : Except Failure α} (h : p.eval c = (r, c')) :
    c.Reaches c' := by
  have hreach := hp.reaches c
  rwa [h] at hreach

theorem pure (a : α) : (Pure.pure a : Parser α).Forward := by
  refine ⟨Cursor.Reaches.refl, ?_⟩
  intro c c' e h
  cases h

theorem takeWhile (m : UInt8 → Bool) : (Parser.takeWhile m).Forward := by
  refine ⟨fun c => c.reaches_advance_run m, ?_⟩
  intro c c' e h
  cases h

theorem peek : Parser.peek.Forward := by
  refine ⟨Cursor.Reaches.refl, ?_⟩
  intro c c' e h
  cases h

theorem eat {b : UInt8} (hb : Bytes.isAscii b = true) : (Parser.eat b).Forward := by
  constructor
  · intro c
    rw [eval_eat]
    cases hc : c.eat? b with
    | none => exact .refl c
    | some d => exact Cursor.reaches_of_eat? hb hc
  · intro c c' e h
    rw [eval_eat] at h
    cases hc : c.eat? b <;> rw [hc] at h <;> cases h

theorem expect {b : UInt8} (hb : Bytes.isAscii b = true) (literal : Literal) :
    (Parser.expect b literal).Forward := by
  constructor
  · intro c
    rw [eval_expect]
    cases hc : c.eat? b with
    | none => exact .refl c
    | some d => exact Cursor.reaches_of_eat? hb hc
  · intro c c' e h
    rw [eval_expect] at h
    cases hc : c.eat? b with
    | none =>
      rw [hc] at h
      cases h
      exact ⟨c, .refl c, rfl⟩
    | some d =>
      rw [hc] at h
      cases h

theorem finish (literal : Literal) : (Parser.finish literal).Forward := by
  constructor
  · intro c
    rw [eval_finish]
    exact .refl c
  · intro c c' e h
    rw [eval_finish] at h
    split at h <;> cases h
    exact ⟨c, .refl c, rfl⟩

theorem bind (hp : p.Forward) (hf : ∀ a, (f a).Forward) : (p >>= f).Forward := by
  constructor
  · intro c
    rw [eval_bind]
    rcases h : p.eval c with ⟨e | a, d⟩
    · exact hp.reaches_of_eval h
    · exact (hp.reaches_of_eval h).trans ((hf a).reaches d)
  · intro c c' e h
    rcases eval_bind_eq_error h with hfirst | ⟨a, d, hfirst, hlater⟩
    · exact hp.failure hfirst
    · obtain ⟨d', hd', hoffset⟩ := (hf a).failure hlater
      exact ⟨d', (hp.reaches_of_eval hfirst).trans hd', hoffset⟩

end Forward

/-! ## Consuming -/

/-- A success of `p` consumes something. -/
def Advances (p : Parser α) : Prop :=
  ∀ c a c', p.eval c = (.ok a, c') → c.position < c'.position

namespace Advances

theorem expect (b : UInt8) (literal : Literal) : (Parser.expect b literal).Advances := by
  intro c a c' h
  rw [(passes_of_eval_expect h).position_eq]
  exact Nat.lt_succ_self _

theorem bind (hp : p.Advances) (hf : ∀ a, (f a).Forward) : (p >>= f).Advances := by
  intro c b c' h
  obtain ⟨a, d, hfirst, hlater⟩ := eval_bind_eq_ok h
  have hlt := hp c a d hfirst
  have hle := ((hf a).reaches_of_eval hlater).position_le
  omega

end Advances

/-! ## Readers of literals -/

/-- From every cursor, `p` either goes on and consumes something, or gives everything back and fails
where it could have gone on to. -/
def Orderly (p : Parser α) : Prop :=
  ∀ c : Cursor,
    (∃ a c', p.eval c = (.ok a, c') ∧ c.Reaches c' ∧ c.position < c'.position) ∨
      ∃ e, p.eval c = (.error e, c) ∧ ∃ d, c.Reaches d ∧ d.position = e.offset

namespace Orderly

theorem restores (hp : p.Orderly) (h : p.eval c = (.error e, c')) : c' = c := by
  rcases hp c with ⟨a, d, heval, _⟩ | ⟨e', heval, _⟩
  · rw [heval] at h
    cases h
  · rw [heval] at h
    cases h
    rfl

theorem failure (hp : p.Orderly) (h : p.eval c = (.error e, c')) :
    ∃ d, c.Reaches d ∧ d.position = e.offset := by
  rcases hp c with ⟨a, d, heval, _⟩ | ⟨e', heval, hoffset⟩
  · rw [heval] at h
    cases h
  · rw [heval] at h
    cases h
    exact hoffset

theorem success (hp : p.Orderly) (h : p.eval c = (.ok a, c')) :
    c.Reaches c' ∧ c.position < c'.position := by
  rcases hp c with ⟨a', d, heval, hmove⟩ | ⟨e, heval, _⟩
  · rw [heval] at h
    cases h
    exact hmove
  · rw [heval] at h
    cases h

theorem advances (hp : p.Orderly) : p.Advances :=
  fun _ _ _ h => (hp.success h).2

theorem forward (hp : p.Orderly) : p.Forward := by
  refine ⟨?_, hp.failure⟩
  intro c
  rcases hp c with ⟨a, c', heval, hreach, _⟩ | ⟨e, heval, _⟩
  · rw [heval]
    exact hreach
  · rw [heval]
    exact .refl c

/-- It is enough that `p` takes the longest run of a class and fails where it began if that run is
no literal. -/
theorem of_run {m : UInt8 → Bool}
    (h : ∀ c : Cursor,
      (∃ a, c.run m ≠ [] ∧ p.eval c = (.ok a, c.advance (c.run m).length)) ∨
        ∃ e, p.eval c = (.error e, c) ∧ e.offset = c.position) : p.Orderly := by
  intro c
  rcases h c with ⟨a, hne, heval⟩ | ⟨e, heval, hoffset⟩
  · have hpos := List.length_pos_iff.mpr hne
    refine .inl ⟨a, _, heval, c.reaches_advance_run m, ?_⟩
    rw [(c.passes_advance_run m).position_eq]
    omega
  · exact .inr ⟨e, heval, c, .refl c, hoffset.symm⟩

theorem attempt (hforward : p.Forward) (hadvances : p.Advances) : p.attempt.Orderly := by
  intro c
  rcases h : p.eval c with ⟨e | a, c'⟩
  · exact .inr ⟨e, by rw [eval_attempt, h], hforward.failure h⟩
  · exact .inl ⟨a, c', by rw [eval_attempt, h], hforward.reaches_of_eval h, hadvances c a c' h⟩

theorem map (hp : p.Orderly) (g : α → β) : (g <$> p).Orderly := by
  intro c
  rcases hp c with ⟨a, c', heval, hmove⟩ | ⟨e, heval, hoffset⟩
  · exact .inl ⟨g a, c', by rw [eval_map, heval]; rfl, hmove⟩
  · exact .inr ⟨e, by rw [eval_map, heval]; rfl, hoffset⟩

theorem recognize (hp : p.Orderly) : p.recognize.Orderly := by
  intro c
  rcases hp c with ⟨a, c', heval, hmove⟩ | ⟨e, heval, hoffset⟩
  · exact .inl ⟨(a, c'.since c.position), c', by rw [eval_recognize, heval], hmove⟩
  · exact .inr ⟨e, by rw [eval_recognize, heval], hoffset⟩

theorem mapFailure (hp : p.Orderly) {g : Failure → Failure} (hg : ∀ e, (g e).offset = e.offset) :
    (p.mapFailure g).Orderly := by
  intro c
  rcases hp c with ⟨a, c', heval, hmove⟩ | ⟨e, heval, hoffset⟩
  · exact .inl ⟨a, c', by rw [eval_mapFailure, heval]; rfl, hmove⟩
  · exact .inr ⟨g e, by rw [eval_mapFailure, heval]; rfl, by rwa [hg]⟩

theorem onFailure (hp : p.Orderly) (report : Failure → Log.Record) :
    (p.onFailure report).Orderly := by
  intro c
  rw [eval_onFailure]
  exact hp c

/-- Nothing is consumed by asking for the offset. -/
theorem position {f : Nat → Parser α} (hf : ∀ start, (f start).Orderly) :
    (Parser.position >>= f).Orderly := by
  intro c
  rw [eval_bind_of_ok (eval_position c)]
  exact hf _ c

end Orderly

/-! ## Choices -/

/-- What a choice of readers gives, one of them gives at the same place. -/
theorem eval_choice_eq_ok {ps : List (Parser α)} (hps : ∀ p ∈ ps, p.Orderly)
    (h : (choice e ps).eval c = (.ok a, c')) : ∃ p ∈ ps, p.eval c = (.ok a, c') := by
  induction ps generalizing e with
  | nil => cases h
  | cons p ps ih =>
    obtain ⟨hp, hps⟩ := List.forall_mem_cons.mp hps
    rw [eval_choice_cons] at h
    rcases hp c with ⟨a', d, heval, _⟩ | ⟨e', heval, _⟩
    · rw [heval] at h
      exact ⟨p, List.mem_cons_self, heval.trans h⟩
    · rw [heval] at h
      obtain ⟨q, hq, hread⟩ := ih hps h
      exact ⟨q, List.mem_cons_of_mem p hq, hread⟩

/-- A choice of readers that fails gives everything back, and its failure is the first one or that
of a reader. -/
theorem eval_choice_eq_error {ps : List (Parser α)} (hps : ∀ p ∈ ps, p.Orderly)
    (he : ∃ d, c.Reaches d ∧ d.position = e.offset) {e' : Failure}
    (h : (choice e ps).eval c = (.error e', c')) :
    c' = c ∧ ∃ d, c.Reaches d ∧ d.position = e'.offset := by
  induction ps generalizing e with
  | nil =>
    cases h
    exact ⟨rfl, he⟩
  | cons p ps ih =>
    obtain ⟨hp, hps⟩ := List.forall_mem_cons.mp hps
    rw [eval_choice_cons] at h
    rcases hp c with ⟨a', d, heval, _⟩ | ⟨e'', heval, hoffset⟩
    · rw [heval] at h
      cases h
    · rw [heval] at h
      refine ih hps ?_ h
      rw [Failure.furthest]
      split
      · exact hoffset
      · exact he

/-- A choice of readers that, before any of them is tried, fails where it begins. -/
theorem Orderly.choice {ps : List (Parser α)} (hps : ∀ p ∈ ps, p.Orderly) (literal : Literal)
    (reason : Reason) :
    (Parser.position >>= fun start => Parser.choice ⟨literal, start, reason⟩ ps).Orderly := by
  intro c
  rw [eval_bind_of_ok (eval_position c)]
  rcases h : (Parser.choice ⟨literal, c.position, reason⟩ ps).eval c with ⟨e | a, c'⟩
  · obtain ⟨rfl, hoffset⟩ := eval_choice_eq_error hps ⟨c, .refl c, rfl⟩ h
    exact .inr ⟨e, rfl, hoffset⟩
  · obtain ⟨p, hp, hread⟩ := eval_choice_eq_ok hps h
    exact .inl ⟨a, c', rfl, (hps p hp).success hread⟩

end NetLiteral.Parser
