import NetLiteral.Proofs.Cursor.Script
import NetLiteral.Proofs.Parser.Scan

/-!
# Scripts and character boundaries

A script may eat any byte, also the first one of a longer character. Up to there its steps stay
between characters, where the text can be read on and sliced. Eating such a byte moves the cursor
into the character, where each of these accesses is stopped.
-/

namespace NetLiteral

/-! ## Places in a text -/

namespace Scan

/-- A place between two characters: the rest of the text, a run of any class and what was passed
over since such a place that is not further on can be sliced out. Nothing can be sliced out from a
place further on, such as one that was seen inside an attempt before it was given back. -/
structure Between (text : Bytes) (offset : Nat) : Prop where
  le_length : offset ≤ text.length
  isBoundary : Bytes.isBoundary text offset = true
  rest : Bytes.slice text offset text.length = .ok (text.drop offset)
  takeWhile : ∀ m, ∃ run stop, Scan.takeWhile m text offset = .ok (.ok run, stop)
  since : ∀ start ≤ offset, Bytes.isBoundary text start = true →
    Scan.since start text offset = .ok (.ok ((text.take offset).drop start), offset)
  ahead : ∀ start, offset < start → Scan.since start text offset = .error .outOfBounds

/-- A place inside a character, where each of these accesses is stopped. -/
structure Inside (text : Bytes) (offset : Nat) : Prop where
  le_length : offset ≤ text.length
  isBoundary : Bytes.isBoundary text offset = false
  rest : Bytes.slice text offset text.length = .error .insideCharacter
  takeWhile : ∀ m, Scan.takeWhile m text offset = .error .insideCharacter
  since : ∀ start ≤ offset, Scan.since start text offset = .error .insideCharacter
  ahead : ∀ start, offset < start → Scan.since start text offset = .error .outOfBounds

theorem inside_of_isBoundary {text : Bytes} {offset : Nat} (hle : offset ≤ text.length)
    (h : Bytes.isBoundary text offset = false) : Inside text offset := by
  refine ⟨hle, h, Bytes.slice_eq_insideCharacter hle (Nat.le_refl _) (.inl h), ?_, ?_, ?_⟩
  · exact fun m => StopsInside.takeWhile m text offset hle h
  · exact fun start hstart => since_eq_insideCharacter hstart hle h
  · exact fun start hstart => since_eq_outOfBounds text hstart

end Scan

namespace Cursor

variable {c d : Cursor}

theorem OnBoundary.between (hc : c.OnBoundary) : Scan.Between c.input c.position := by
  refine ⟨c.position_le_length, hc.isBoundary, ?_, ?_, ?_, ?_⟩
  · rw [input, position, Bytes.slice_suffix _ hc.not_isContinuation, List.drop_left]
  · intro m
    exact ⟨_, _, Scan.Follows.takeWhile m c hc⟩
  · intro start hle hstart
    rw [Scan.since, Bytes.slice_eq_ok hle c.position_le_length hstart hc.isBoundary]
    rfl
  · exact fun start hstart => Scan.since_eq_outOfBounds _ hstart

/-- After the first byte of a longer character stands a byte that goes on with it. -/
theorem OnBoundary.isBoundary_of_eat? {b : UInt8} (hc : c.OnBoundary) (h : c.eat? b = some d)
    (hb : Bytes.isAscii b = false) : Bytes.isBoundary d.input d.position = false := by
  obtain ⟨hunread, hconsumed⟩ := passes_of_eat? h
  obtain ⟨_, after, _, hafter⟩ := hc
  obtain ⟨x, xs, hx, hcont⟩ :=
    Bytes.isContinuation_of_not_isAscii (hafter.symm.trans hunread) hb
  have hrest : d.unread = x :: xs := hx
  rw [input, position, hrest]
  apply Bytes.isBoundary_length_append_continuation _ hcont
  simp [hconsumed]

end Cursor

namespace Script

variable {α : Type}

/-! ## Steps -/

/-- The steps that a cursor offers: any byte may be eaten or expected, and any class taken. Only
readers of literals are run. What was consumed since an offset is a question about two places, so
it is asked of the places that the steps show. -/
inductive Step.Public : Step α → Prop
  | peek : Public .peek
  | rest : Public .rest
  | isAtEnd : Public .isAtEnd
  | eat (b : UInt8) : Public (.eat b)
  | takeWhile (m : UInt8 → Bool) : Public (.takeWhile m)
  | expect (b : UInt8) (literal : Literal) : Public (.expect b literal)
  | finish (literal : Literal) : Public (.finish literal)
  | fail (e : Failure) : Public (.fail e)
  | parse {p : Parser α} (hp : IsReader p) : Public (.parse p)
  | recognize {p : Parser α} (hp : IsReader p) : Public (.recognize p)
  | attempt {steps : List (Step α)} (hsteps : ∀ s ∈ steps, s.Public) : Public (.attempt steps)
  | recognizeSteps {steps : List (Step α)} (hsteps : ∀ s ∈ steps, s.Public) :
    Public (.recognizeSteps steps)
  | tolerate {s : Step α} (hs : s.Public) : Public (.tolerate s)

/-- The byte is next, and it is not a character of its own. -/
def Breaks (c : Cursor) (b : UInt8) : Prop :=
  c.peek = some b ∧ Bytes.isAscii b = false

mutual

/-- Whether a step, or one that runs inside it, eats a byte that is not a character of its own. -/
def Step.Splits : Step α → Cursor → Prop
  | .eat b, c => Breaks c b
  | .expect b _, c => Breaks c b
  | .attempt steps, c => splitsIn steps c
  | .recognizeSteps steps, c => splitsIn steps c
  | .tolerate step, c => step.Splits c
  | _, _ => False

/-- Whether one of some steps does so before a failure ends them. -/
def splitsIn : List (Step α) → Cursor → Prop
  | [], _ => False
  | step :: steps, c =>
    step.Splits c ∨ (runStep step c).failure = none ∧ splitsIn steps (runStep step c).cursor

end

/-! ## What steps visit -/

/-- The places that a trace from `c` shows. All of them are in the text. If the trace begins between
two characters and does not split one, it stays between characters; otherwise it shows a place that
is not. -/
structure Visits (c : Cursor) (split : Prop) (t : Trace α) : Prop where
  input_eq : t.cursor.input = c.input
  le_length : ∀ q ∈ positionsOf t.answers, q ≤ c.input.length
  between : c.OnBoundary → ¬split →
    t.cursor.OnBoundary ∧ ∀ q ∈ positionsOf t.answers, Scan.Between c.input q
  inside : c.OnBoundary → split →
    ∃ q ∈ positionsOf t.answers, Bytes.isBoundary c.input q = false

variable {c : Cursor} {split : Prop} {t inner : Trace α} {v : Value α} {s : Step α}
  {steps : List (Step α)}

theorem positionsOf_append (xs ys : List (Answer α)) :
    positionsOf (xs ++ ys) = positionsOf xs ++ positionsOf ys := by
  induction xs with
  | nil => rfl
  | cons x xs ih => rw [List.cons_append, positionsOf, ih, positionsOf, List.append_assoc]

theorem positionsOf_ofParser (p : Parser (Value α)) (c : Cursor) :
    positionsOf (Trace.ofParser p c).answers = [(p.eval c).2.position] := by
  rw [answers_ofParser]
  rfl

theorem visits_ofParser {p : Parser (Value α)} (hreach : c.Reaches (p.eval c).2) :
    Visits c False (.ofParser p c) := by
  refine ⟨?_, ?_, ?_, fun _ h => h.elim⟩
  · rw [cursor_ofParser, hreach.input_eq]
  · rw [positionsOf_ofParser, List.forall_mem_singleton, ← hreach.input_eq]
    exact Cursor.position_le_length _
  · intro hc _
    have hd := hreach.onBoundary hc
    rw [cursor_ofParser, positionsOf_ofParser, List.forall_mem_singleton, ← hreach.input_eq]
    exact ⟨hd, hd.between⟩

/-- A byte is eaten if it is next, and it splits a character unless it is one. -/
theorem visits_eat {p : Parser (Value α)} {b : UInt8}
    (hp : (p.eval c).2 = (c.eat? b).getD c) : Visits c (Breaks c b) (.ofParser p c) := by
  rcases c.eat?_cases b with ⟨hpeek, d, hd, _⟩ | ⟨hpeek, hnone⟩
  · rw [hd, Option.getD_some] at hp
    have hinput := (Cursor.passes_of_eat? hd).input_eq
    rcases hb : Bytes.isAscii b with _ | _
    · have hinside (hc : c.OnBoundary) := hc.isBoundary_of_eat? hd hb
      rw [hinput] at hinside
      refine ⟨?_, ?_, fun _ h => absurd ⟨hpeek, hb⟩ h, ?_⟩
      · rw [cursor_ofParser, hp, hinput]
      · rw [positionsOf_ofParser, List.forall_mem_singleton, hp, ← hinput]
        exact d.position_le_length
      · intro hc _
        rw [positionsOf_ofParser, hp]
        exact ⟨d.position, List.mem_singleton_self _, hinside hc⟩
    · have hsplit : Breaks c b ↔ False := by simp [Breaks, hb]
      rw [hsplit]
      exact visits_ofParser (by rw [hp]; exact Cursor.reaches_of_eat? hb hd)
  · have hsplit : Breaks c b ↔ False := by simp [Breaks, hpeek]
    rw [hsplit]
    exact visits_ofParser (by rw [hp, hnone]; exact .refl c)

/-- An attempt shows what its steps show, and the place that it ends at. Going back to where it
began takes a split back, but the place inside the character was shown. -/
theorem Visits.attempt (hinner : Visits c split inner) (h : IsAttempt c inner v t) :
    Visits c split t := by
  obtain ⟨result, hanswers, hend⟩ : ∃ result,
      t.answers = [.mk result t.cursor.position inner.answers] ∧
        (t.cursor = inner.cursor ∨ t.cursor = c) := by
    rcases hfailure : inner.failure with _ | e
    · obtain ⟨hanswers, -, hcursor⟩ := h.success hfailure
      exact ⟨_, by rw [hanswers, hcursor], .inl hcursor⟩
    · obtain ⟨hanswers, -, hcursor⟩ := h.failure e hfailure
      exact ⟨_, by rw [hanswers, hcursor], .inr hcursor⟩
  have hpositions : positionsOf t.answers = t.cursor.position :: positionsOf inner.answers := by
    rw [hanswers]
    exact List.append_nil _
  have hinput : t.cursor.input = c.input := by
    rcases hend with hend | hend <;> rw [hend]
    exact hinner.input_eq
  refine ⟨hinput, ?_, ?_, ?_⟩
  · rw [hpositions, List.forall_mem_cons]
    exact ⟨hinput ▸ t.cursor.position_le_length, hinner.le_length⟩
  · intro hc hsplit
    obtain ⟨hd, hall⟩ := hinner.between hc hsplit
    have hboundary : t.cursor.OnBoundary := by rcases hend with hend | hend <;> rwa [hend]
    rw [hpositions, List.forall_mem_cons]
    exact ⟨hboundary, hinput ▸ hboundary.between, hall⟩
  · intro hc hsplit
    obtain ⟨q, hq, hinside⟩ := hinner.inside hc hsplit
    rw [hpositions]
    exact ⟨q, List.mem_cons_of_mem _ hq, hinside⟩

/-- A step that splits shows its place, whatever follows. After one that does not and that succeeds
the next steps begin between characters again. -/
theorem visits_run (hsteps : ∀ s ∈ steps, ∀ c, Visits c (s.Splits c) (runStep s c)) (c : Cursor) :
    Visits c (splitsIn steps c) (run steps c) := by
  induction steps generalizing c with
  | nil => exact ⟨rfl, nofun, fun hc _ => ⟨hc, nofun⟩, fun _ h => h.elim⟩
  | cons s steps ih =>
    obtain ⟨hs, hsteps⟩ := List.forall_mem_cons.mp hsteps
    have hstep := hs c
    rw [splitsIn, run]
    rcases hfailure : (runStep s c).failure with _ | e
    · have hrest := ih hsteps (runStep s c).cursor
      have hinput := hstep.input_eq
      dsimp only
      constructor
      · rw [hrest.input_eq, hinput]
      · rw [positionsOf_append, List.forall_mem_append]
        exact ⟨hstep.le_length, hinput ▸ hrest.le_length⟩
      · intro hc hsplit
        rw [not_or, not_and] at hsplit
        obtain ⟨hd, hfirst⟩ := hstep.between hc hsplit.1
        obtain ⟨hend, hlater⟩ := hrest.between hd (hsplit.2 rfl)
        rw [positionsOf_append, List.forall_mem_append]
        exact ⟨hend, hfirst, hinput ▸ hlater⟩
      · intro hc hsplit
        rw [positionsOf_append]
        by_cases hfirst : s.Splits c
        · obtain ⟨q, hq, hinside⟩ := hstep.inside hc hfirst
          exact ⟨q, List.mem_append_left _ hq, hinside⟩
        · have hd := (hstep.between hc hfirst).1
          obtain ⟨q, hq, hinside⟩ := hrest.inside hd (hsplit.resolve_left hfirst).2
          exact ⟨q, List.mem_append_right _ hq, hinput ▸ hinside⟩
    · have hsplit : s.Splits c ∨ some e = none ∧ splitsIn steps (runStep s c).cursor ↔
          s.Splits c := by simp
      rw [hsplit]
      exact ⟨hstep.input_eq, hstep.le_length, hstep.between, hstep.inside⟩

/-- An induction on the script: each step shows what its moves pass by. -/
theorem Step.Public.visits (hs : s.Public) (c : Cursor) :
    Visits c (s.Splits c) (runStep s c) := by
  induction hs generalizing c with
  | peek => exact visits_ofParser (.refl c)
  | rest => exact visits_ofParser (.refl c)
  | isAtEnd => exact visits_ofParser (.refl c)
  | eat b =>
    apply visits_eat
    rw [Parser.eval_map, Parser.eval_eat]
    cases c.eat? b <;> rfl
  | takeWhile m => exact visits_ofParser (c.reaches_advance_run m)
  | expect b literal =>
    apply visits_eat
    rw [Parser.eval_map, Parser.eval_expect]
    cases c.eat? b <;> rfl
  | finish literal =>
    apply visits_ofParser
    rw [Parser.eval_map, Parser.eval_finish]
    exact .refl c
  | fail e => exact visits_ofParser (.refl c)
  | parse hp => exact visits_ofParser ((hp.orderly.map _).forward.reaches c)
  | recognize hp => exact visits_ofParser ((hp.orderly.recognize.map _).forward.reaches c)
  | attempt _ ih => exact (visits_run ih c).attempt (.attempt _ c)
  | recognizeSteps _ ih => exact (visits_run ih c).attempt (.recognizeSteps _ c)
  | tolerate _ ih =>
    -- The failure is dropped, and no place depends on it.
    obtain ⟨hinput, hlength, hbetween, hinside⟩ := ih c
    exact ⟨hinput, hlength, hbetween, hinside⟩

/-! ## Separators that are characters -/

theorem not_splitsIn (hsteps : ∀ s ∈ steps, ∀ c, ¬s.Splits c) (c : Cursor) :
    ¬splitsIn steps c := by
  induction steps generalizing c with
  | nil => exact id
  | cons s steps ih =>
    obtain ⟨hs, hsteps⟩ := List.forall_mem_cons.mp hsteps
    rw [splitsIn, not_or, not_and]
    exact ⟨hs c, fun _ => ih hsteps _⟩

theorem Step.Admissible.not_splits (hs : s.Admissible) (c : Cursor) : ¬s.Splits c := by
  induction hs generalizing c with
  | eat hb => exact fun h => Bool.false_ne_true (h.2.symm.trans hb)
  | expect hb literal => exact fun h => Bool.false_ne_true (h.2.symm.trans hb)
  | attempt _ ih => exact not_splitsIn ih c
  | recognizeSteps _ ih => exact not_splitsIn ih c
  | tolerate _ ih => exact ih c
  | _ => exact id

/-! ## Whole scripts -/

/-- The places that a script shows are in its text. They are between characters, unless an `eat` or
an `expect` takes the first byte of a longer character; then one of them is inside it, and the text
cannot be read on from there. Scripts with separators that are characters never do this. At either
kind of place, what was passed over since a place further on cannot be sliced out. -/
theorem boundaries_unless_split (hsteps : ∀ s ∈ steps, s.Public) (text : String) :
    (∀ q ∈ positionsOf (run steps (.ofString text)).answers,
      q ≤ (Bytes.ofString text).length) ∧
    (¬splitsIn steps (.ofString text) →
      ∀ q ∈ positionsOf (run steps (.ofString text)).answers,
        Scan.Between (Bytes.ofString text) q) ∧
    (splitsIn steps (.ofString text) →
      ∃ q ∈ positionsOf (run steps (.ofString text)).answers,
        Scan.Inside (Bytes.ofString text) q) ∧
    ((∀ s ∈ steps, s.Admissible) → ¬splitsIn steps (.ofString text)) := by
  have hvisits := visits_run (fun s hs => (hsteps s hs).visits) (.ofString text)
  have hstart := Cursor.ofString_onBoundary text
  refine ⟨hvisits.le_length, fun h => (hvisits.between hstart h).2, ?_, ?_⟩
  · intro h
    obtain ⟨q, hq, hinside⟩ := hvisits.inside hstart h
    exact ⟨q, hq, Scan.inside_of_isBoundary (hvisits.le_length q hq) hinside⟩
  · intro hadmissible
    exact not_splitsIn (fun s hs => (hadmissible s hs).not_splits) _

/-- The two bytes of one character, eaten one after another. -/
def eatTwice : List (Step Unit) :=
  [.eat 0xC3, .eat 0xA9]

theorem eatTwice_public : ∀ s ∈ eatTwice, s.Public := by
  rintro s (_ | ⟨_, _ | ⟨_, ⟨⟩⟩⟩)
  · exact .eat _
  · exact .eat _

theorem boundaries_unless_split_eatTwice :
    (∀ s ∈ eatTwice, s.Public) ∧ splitsIn eatTwice (.ofString "é") ∧
    ∃ q ∈ positionsOf (run eatTwice (.ofString "é")).answers,
      Scan.Inside (Bytes.ofString "é") q :=
  have hsplit : splitsIn eatTwice (.ofString "é") := .inl ⟨rfl, rfl⟩
  ⟨eatTwice_public, hsplit, (boundaries_unless_split eatTwice_public "é").2.2.1 hsplit⟩

/-- Between the two bytes the cursor is inside the character. -/
theorem eat_splits_character :
    (∀ s ∈ eatTwice, s.Public) ∧
    positionsOf (run eatTwice (.ofString "é")).answers = [1, 2] ∧
    Bytes.isBoundary (Bytes.ofString "é") 1 = false ∧
    Bytes.slice (Bytes.ofString "é") 1 (Bytes.ofString "é").length =
      .error .insideCharacter :=
  ⟨eatTwice_public, rfl, rfl, rfl⟩

end Script

end NetLiteral
