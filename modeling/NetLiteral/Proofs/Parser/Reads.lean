import NetLiteral.Proofs.ByteClass
import NetLiteral.Proofs.Parser.Eval

/-!
# Texts that parsers read

A parser reads a text as a value if it gives that value wherever the text stands, and leaves what
follows it unread. Most texts are runs of bytes of a class, and what follows has to end the run.
-/

namespace NetLiteral

/-- What follows a run of bytes of a class: no further byte of it. -/
def EndsRun (isMember : UInt8 → Bool) (rest : Bytes) : Prop :=
  ∀ b, rest.head? = some b → isMember b = false

namespace EndsRun

variable {m m' : UInt8 → Bool} {rest : Bytes}

@[simp] theorem nil : EndsRun m [] := by
  intro b h
  cases h

@[simp] theorem cons_iff {b : UInt8} : EndsRun m (b :: rest) ↔ m b = false := by
  simp [EndsRun]

theorem mono (h : EndsRun m' rest) (hsub : ∀ b, m b = true → m' b = true) : EndsRun m rest := by
  intro b hb
  rw [Bool.eq_false_iff]
  intro hm
  have hm' := h b hb
  rw [hsub b hm] at hm'
  cases hm'

end EndsRun

/-! ## Runs -/

namespace Cursor

variable {m : UInt8 → Bool} {consumed text rest : Bytes}

theorem run_append (htext : ∀ b ∈ text, Bytes.isAscii b = true ∧ m b = true)
    (hrest : EndsRun m rest) : run ⟨consumed, text ++ rest⟩ m = text := by
  have hmem : ∀ b ∈ text, (Bytes.isAscii b && m b) = true := by
    intro b hb
    rw [(htext b hb).1, (htext b hb).2]
    rfl
  rw [run, List.takeWhile_append_of_pos hmem]
  cases rest with
  | nil => simp
  | cons b rest =>
    have hb := EndsRun.cons_iff.mp hrest
    simp [hb]

theorem run_eq_nil {c : Cursor} (h : EndsRun m c.unread) : c.run m = [] :=
  run_append (List.forall_mem_nil _) h

@[simp] theorem advance_append : advance ⟨consumed, text ++ rest⟩ text.length =
    ⟨consumed ++ text, rest⟩ := by
  simp [advance]

/-- After a run of a class of ASCII bytes comes no further byte of the class. -/
theorem endsRun_advance_run (hascii : ∀ b, m b = true → Bytes.isAscii b = true) (c : Cursor) :
    EndsRun m (c.advance (c.run m).length).unread := by
  have hrest : (c.advance (c.run m).length).unread =
      c.unread.dropWhile fun b => Bytes.isAscii b && m b := calc
    c.unread.drop (c.run m).length =
        (c.run m ++ c.unread.dropWhile fun b => Bytes.isAscii b && m b).drop
          (c.run m).length := by rw [run, List.takeWhile_append_dropWhile]
    _ = c.unread.dropWhile fun b => Bytes.isAscii b && m b := List.drop_left
  intro b hb
  have hfirst := List.head?_dropWhile_not (fun b => Bytes.isAscii b && m b) c.unread
  rw [← hrest, hb] at hfirst
  rw [Bool.eq_false_iff]
  intro hm
  simp [hm, hascii b hm] at hfirst

/-- A run that what follows a text ends, or that a byte of the text ends, is the first part of the
text. -/
theorem run_isPrefix (h : EndsRun m rest ∨ ∃ x ∈ text, m x = false) :
    run ⟨consumed, text ++ rest⟩ m <+: text := by
  induction text with
  | nil =>
    have hrest : EndsRun m rest := by simpa using h
    cases rest with
    | nil => exact List.prefix_rfl
    | cons x rest => simp [run, EndsRun.cons_iff.mp hrest]
  | cons x text ih =>
    rw [run, List.cons_append, List.takeWhile_cons]
    split
    next hx =>
      have hx' : m x = true := ((Bool.and_eq_true _ _).mp hx).2
      refine (List.prefix_cons_inj x).mpr (ih (h.imp_right ?_))
      rintro ⟨y, hy, hmy⟩
      rcases List.mem_cons.mp hy with rfl | hy
      · rw [hx'] at hmy
        cases hmy
      · exact ⟨y, hy, hmy⟩
    next => exact List.nil_prefix

theorem mem_of_mem_run (h : EndsRun m rest ∨ ∃ x ∈ text, m x = false) {b : UInt8}
    (hb : b ∈ run ⟨consumed, text ++ rest⟩ m) : b ∈ text :=
  (run_isPrefix h).subset hb

theorem eat?_cons_self (b : UInt8) :
    eat? ⟨consumed, b :: rest⟩ b = some ⟨consumed ++ [b], rest⟩ := by
  simp [eat?]

theorem eat?_eq_none {b : UInt8} (h : rest.head? ≠ some b) : eat? ⟨consumed, rest⟩ b = none := by
  cases rest with
  | nil => rfl
  | cons x rest =>
    have hx : x ≠ b := by simpa using h
    simp [eat?, hx]

end Cursor

/-! ## Reading -/

namespace Parser

variable {α β : Type} {m m' : UInt8 → Bool} {text text' : Bytes}

/-- `p` reads `text` as `a` before anything that ends a run of the class. -/
def Reads (p : Parser α) (m : UInt8 → Bool) (text : Bytes) (a : α) : Prop :=
  ∀ consumed rest, EndsRun m rest →
    p.eval ⟨consumed, text ++ rest⟩ = (.ok a, ⟨consumed ++ text, rest⟩)

namespace Reads

variable {p : Parser α} {a : α}

theorem mono (h : p.Reads m text a) (hsub : ∀ b, m b = true → m' b = true) :
    p.Reads m' text a :=
  fun consumed rest hrest => h consumed rest (hrest.mono hsub)

theorem pure (a : α) : (Pure.pure a : Parser α).Reads m [] a := by
  intro consumed rest _
  simp

theorem takeWhile (h : ∀ b ∈ text, Bytes.isAscii b = true ∧ m b = true) :
    (Parser.takeWhile m).Reads m text text := by
  intro consumed rest hrest
  rw [eval_takeWhile, Cursor.run_append h hrest, Cursor.advance_append]

theorem expect {f : Unit → Parser α} (b : UInt8) (literal : Literal)
    (hf : (f ()).Reads m text a) : (Parser.expect b literal >>= f).Reads m (b :: text) a := by
  intro consumed rest hrest
  have hexpect : (Parser.expect b literal).eval ⟨consumed, b :: (text ++ rest)⟩ =
      (.ok (), ⟨consumed ++ [b], text ++ rest⟩) := by
    rw [eval_expect, Cursor.eat?_cons_self]
  rw [List.cons_append, eval_bind_of_ok hexpect, hf _ rest hrest, List.append_assoc,
    List.singleton_append]

/-- After the first parser there has to stand what ends its run. -/
theorem bind {f : α → Parser β} {b : β} (hp : p.Reads m text a) (hf : (f a).Reads m' text' b)
    (hends : ∀ rest, EndsRun m' rest → EndsRun m (text' ++ rest)) :
    (p >>= f).Reads m' (text ++ text') b := by
  intro consumed rest hrest
  rw [List.append_assoc, eval_bind_of_ok (hp consumed _ (hends rest hrest)), hf _ rest hrest,
    List.append_assoc]

/-- The second parser may also leave the cursor alone. -/
theorem bind_ok {f : α → Parser β} {b : β} (hp : p.Reads m text a)
    (hf : ∀ c, (f a).eval c = (.ok b, c)) : (p >>= f).Reads m text b := by
  intro consumed rest hrest
  rw [eval_bind_of_ok (hp consumed rest hrest), hf]

theorem map (hp : p.Reads m text a) (f : α → β) : (f <$> p).Reads m text (f a) :=
  hp.bind_ok fun _ => rfl

theorem position {f : Nat → Parser α} (hf : ∀ start, (f start).Reads m text a) :
    (Parser.position >>= f).Reads m text a := by
  intro consumed rest hrest
  rw [eval_bind_of_ok (eval_position _)]
  exact hf _ consumed rest hrest

theorem attempt (h : p.Reads m text a) : p.attempt.Reads m text a := by
  intro consumed rest hrest
  exact eval_attempt_of_ok (h consumed rest hrest)

theorem onFailure (h : p.Reads m text a) (report : Failure → Log.Record) :
    (p.onFailure report).Reads m text a := by
  intro consumed rest hrest
  rw [eval_onFailure, h consumed rest hrest]

theorem mapFailure (h : p.Reads m text a) (f : Failure → Failure) :
    (p.mapFailure f).Reads m text a := by
  intro consumed rest hrest
  rw [eval_mapFailure, h consumed rest hrest]
  rfl

end Reads

/-! ## Refusing -/

/-- `p` fails and gives all input back. -/
def Refuses (p : Parser α) (c : Cursor) : Prop :=
  ∃ e, p.eval c = (.error e, c)

theorem Refuses.map {p : Parser α} {c : Cursor} (h : p.Refuses c) (f : α → β) :
    (f <$> p).Refuses c := by
  obtain ⟨e, he⟩ := h
  refine ⟨e, ?_⟩
  rw [eval_map, he]
  rfl

/-- A choice of parsers that all refuse refuses. -/
theorem Refuses.choice {ps : List (Parser α)} {c : Cursor} (h : ∀ p ∈ ps, p.Refuses c)
    (e : Failure) : (choice e ps).Refuses c := by
  induction ps generalizing e with
  | nil => exact ⟨e, rfl⟩
  | cons p ps ih =>
    obtain ⟨hp, hps⟩ := List.forall_mem_cons.mp h
    obtain ⟨e', he'⟩ := hp
    obtain ⟨e'', he''⟩ := ih hps (e.furthest e')
    refine ⟨e'', ?_⟩
    rw [eval_choice_cons, he']
    exact he''

theorem Reads.choice_head {p : Parser α} {a : α} (h : p.Reads m text a) (ps : List (Parser α))
    (e : Failure) : (choice e (p :: ps)).Reads m text a := by
  intro consumed rest hrest
  rw [eval_choice_cons, h consumed rest hrest]

/-- An alternative is reached if the one before it refuses its text. -/
theorem Reads.choice_tail {p : Parser α} {ps : List (Parser α)} {a : α}
    (hp : ∀ consumed rest, EndsRun m rest → p.Refuses ⟨consumed, text ++ rest⟩)
    (hps : ∀ e, (choice e ps).Reads m text a) (e : Failure) :
    (choice e (p :: ps)).Reads m text a := by
  intro consumed rest hrest
  obtain ⟨e', he'⟩ := hp consumed rest hrest
  rw [eval_choice_cons, he']
  exact hps _ consumed rest hrest

end Parser

end NetLiteral
