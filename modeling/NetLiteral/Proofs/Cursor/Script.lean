import NetLiteral.Cursor.Script
import NetLiteral.Proofs.Reader.Progress

/-!
# Nested attempts

A script may nest attempts to any depth, catch their failures and go on. Whatever the steps inside
an attempt do, a failure of the attempt gives all of it back, a success keeps what they reached, and
nothing inside it ever goes back behind its mark. So the texts that the steps of a script consume
lie next to each other, and what is unread follows them.
-/

namespace NetLiteral.Script

variable {α : Type}

/-! ## Scripts of readers -/

/-- The readers of literals, with their values in any form. -/
inductive IsReader : Parser α → Prop
  | address {f : Family} (g : Address f → α) : IsReader (g <$> Address.parser)
  | prefixLength {f : Family} (g : PrefixLength f → α) : IsReader (g <$> PrefixLength.parser)
  | endpoint {v : IpVersion} (g : Endpoint v → α) : IsReader (g <$> Endpoint.parser)
  | route {f : Family} (g : Route f → α) : IsReader (g <$> Route.parser)
  | label (g : Label → α) : IsReader (g <$> Label.parser)
  | hostname (g : Hostname → α) : IsReader (g <$> Hostname.parser)
  | port (g : UInt16 → α) : IsReader (g <$> Number.port)
  | unsigned (literal : Literal) (lo hi : UInt32) (g : {n : UInt32 // lo ≤ n ∧ n ≤ hi} → α) :
    IsReader (g <$> Number.unsigned literal lo hi)
  | ipAddress (m : Families) (g : IpAddress → α) : IsReader (g <$> IpAddress.parseWith m)
  | host (m : Families) (g : Host → α) : IsReader (g <$> Host.parseWith m)

theorem IsReader.orderly {p : Parser α} (h : IsReader p) : p.Orderly := by
  cases h with
  | address g => exact Address.parser_orderly.map g
  | prefixLength g => exact PrefixLength.parser_orderly.map g
  | endpoint g => exact Endpoint.parser_orderly.map g
  | route g => exact Route.parser_orderly.map g
  | label g => exact Label.parser_orderly.map g
  | hostname g => exact Hostname.parser_orderly.map g
  | port g => exact Number.port_orderly.map g
  | unsigned literal lo hi g => exact (Number.unsigned_orderly literal lo hi).map g
  | ipAddress m g => exact (IpAddress.parseWith_orderly m).map g
  | host m g => exact (Host.parseWith_orderly m).map g

/-- Separators are ASCII, and only readers of literals are run. Classes may hold any bytes. -/
inductive Step.Admissible : Step α → Prop
  | peek : Admissible .peek
  | rest : Admissible .rest
  | isAtEnd : Admissible .isAtEnd
  | eat {b : UInt8} (hb : Bytes.isAscii b = true) : Admissible (.eat b)
  | takeWhile (m : UInt8 → Bool) : Admissible (.takeWhile m)
  | expect {b : UInt8} (hb : Bytes.isAscii b = true) (literal : Literal) :
    Admissible (.expect b literal)
  | finish (literal : Literal) : Admissible (.finish literal)
  | fail (e : Failure) : Admissible (.fail e)
  | parse {p : Parser α} (hp : IsReader p) : Admissible (.parse p)
  | recognize {p : Parser α} (hp : IsReader p) : Admissible (.recognize p)
  | attempt {steps : List (Step α)} (hsteps : ∀ s ∈ steps, s.Admissible) :
    Admissible (.attempt steps)
  | recognizeSteps {steps : List (Step α)} (hsteps : ∀ s ∈ steps, s.Admissible) :
    Admissible (.recognizeSteps steps)
  | tolerate {s : Step α} (hs : s.Admissible) : Admissible (.tolerate s)

/-! ## What answers tell -/

def Answer.position : Answer α → Nat
  | mk _ position _ => position

/-- The text that a value was read from, if it comes with it. -/
def Value.text? : Value α → Option Bytes
  | matched _ bs => some bs
  | matchedSteps bs => some bs
  | _ => none

mutual

/-- The offsets after a step and after every step inside it, however deep. -/
def Answer.positions : Answer α → List Nat
  | .mk _ position none => [position]
  | .mk _ position (some inner) => position :: positionsOf inner

def positionsOf : List (Answer α) → List Nat
  | [] => []
  | answer :: answers => answer.positions ++ positionsOf answers

end

/-- Where the last of some steps ended, the first of which began at `start`. -/
def endOf (start : Nat) (answers : List (Answer α)) : Nat :=
  answers.foldl (fun _ answer => answer.position) start

/-- A failure stands where its step began. A success stands there or further on, and a text that it
gives is the one in between. -/
def Settled (text : Bytes) (start position : Nat) : Except Failure (Value α) → Prop
  | .error _ => position = start
  | .ok v => start ≤ position ∧ ∀ bs, v.text? = some bs → (text.take position).drop start = bs

mutual

/-- At every depth, steps inside a step begin at its mark and follow each other, none of them goes
back behind it, and if it succeeds it stands where the last of them does. -/
def Answer.Lawful (text : Bytes) (start : Nat) : Answer α → Prop
  | .mk result position none => Settled text start position result
  | .mk result position (some inner) =>
    Settled text start position result ∧ LawfulFrom text start inner ∧
      (∀ q ∈ positionsOf inner, start ≤ q) ∧ (∀ v, result = .ok v → position = endOf start inner)

def LawfulFrom (text : Bytes) (start : Nat) : List (Answer α) → Prop
  | [] => True
  | answer :: answers => answer.Lawful text start ∧ LawfulFrom text answer.position answers

end

/-- The texts that successful steps consumed, the first of which began at `start`: each of them is
sliced out from where the step before it ended to where the step itself ended. -/
def consumed (text : Bytes) (start : Nat) : List (Answer α) → Except Fault (List Bytes)
  | [] => .ok []
  | answer :: answers => do
    let later ← consumed text answer.position answers
    match answer.result with
    | .ok _ => return (← Bytes.slice text start answer.position) :: later
    | .error _ => return later

/-! ## One step -/

/-- What one step from `c` leaves. -/
structure Steady (c : Cursor) (t : Trace α) (answer : Answer α) : Prop where
  answers_eq : t.answers = [answer]
  position_eq : answer.position = t.cursor.position
  lawful : answer.Lawful c.input c.position
  le_positions : ∀ q ∈ answer.positions, c.position ≤ q
  reaches : c.Reaches t.cursor
  /-- A step that fails gives everything back, also if its failure is caught. -/
  restores : ∀ e, answer.result = .error e → t.cursor = c
  failure : ∀ e, t.failure = some e → answer.result = .error e
  /-- A text that a step gives is what it consumed. -/
  matched : ∀ v bs, answer.result = .ok v → v.text? = some bs → c.Passes bs t.cursor

/-- What a list of steps from `c` to `d` leaves. -/
structure Runs (c : Cursor) (answers : List (Answer α)) (d : Cursor) : Prop where
  lawful : LawfulFrom c.input c.position answers
  le_positions : ∀ q ∈ positionsOf answers, c.position ≤ q
  endOf_eq : endOf c.position answers = d.position
  reaches : c.Reaches d
  consumed_eq : c.OnBoundary → ∃ texts,
    consumed c.input c.position answers = .ok texts ∧ c.Passes texts.flatten d

variable {c d : Cursor} {t inner : Trace α} {answer : Answer α} {answers : List (Answer α)}
  {v : Value α} {s : Step α} {steps : List (Step α)}

theorem answers_ofParser (p : Parser (Value α)) (c : Cursor) :
    (Trace.ofParser p c).answers = [.mk (p.eval c).1 (p.eval c).2.position none] := by
  rw [Trace.ofParser, Parser.eval]
  cases (p c).result <;> rfl

theorem cursor_ofParser (p : Parser (Value α)) (c : Cursor) :
    (Trace.ofParser p c).cursor = (p.eval c).2 := by
  rw [Trace.ofParser, Parser.eval]
  cases (p c).result <;> rfl

theorem failure_ofParser (p : Parser (Value α)) (c : Cursor) :
    (Trace.ofParser p c).failure = match (p.eval c).1 with
      | .ok _ => none
      | .error e => some e := by
  rw [Trace.ofParser, Parser.eval]
  cases (p c).result <;> rfl

theorem steady_ofParser {p : Parser (Value α)} (hreach : c.Reaches (p.eval c).2)
    (hrestores : ∀ e d, p.eval c = (.error e, d) → d = c)
    (hmatched : ∀ v d bs, p.eval c = (.ok v, d) → v.text? = some bs → c.Passes bs d) :
    ∃ answer, Steady c (.ofParser p c) answer := by
  refine ⟨.mk (p.eval c).1 (p.eval c).2.position none, answers_ofParser p c, ?_, ?_, ?_, ?_, ?_,
    ?_, ?_⟩
  · rw [cursor_ofParser]
    rfl
  · rcases heval : p.eval c with ⟨e | v, d⟩
    · exact congrArg Cursor.position (hrestores e d heval)
    · rw [heval] at hreach
      exact ⟨hreach.position_le, fun bs hbs => (hmatched v d bs heval hbs).drop_take_eq⟩
  · intro q hq
    rw [List.mem_singleton.mp hq]
    exact hreach.position_le
  · rwa [cursor_ofParser]
  · intro e he
    rw [cursor_ofParser]
    exact hrestores e _ (Prod.ext he rfl)
  · intro e he
    rw [failure_ofParser] at he
    rcases hresult : (p.eval c).1 with e' | v <;> rw [hresult] at he <;> cases he
    rfl
  · intro v bs hv hbs
    rw [cursor_ofParser]
    exact hmatched v _ bs (Prod.ext hv rfl) hbs

/-- Steps that give no text of their own. -/
theorem steady_map {β : Type} {p : Parser β} {g : β → Value α} (hp : p.Forward)
    (hrestores : ∀ e d, p.eval c = (.error e, d) → d = c) (hg : ∀ b, (g b).text? = none) :
    ∃ answer, Steady c (.ofParser (g <$> p) c) answer := by
  apply steady_ofParser
  · rw [Parser.eval_map]
    exact hp.reaches c
  · intro e d h
    rw [Parser.eval_map] at h
    rcases heval : p.eval c with ⟨e' | b, d'⟩ <;> rw [heval] at h <;> cases h
    exact hrestores _ _ heval
  · intro v d bs h hbs
    obtain ⟨b, -, rfl⟩ := Parser.eval_map_eq_ok h
    rw [hg b] at hbs
    cases hbs

/-! ## Attempts -/

/-- What an attempt from `c` makes of the trace of its inner steps: a failure of theirs is its own
and gives everything back, and otherwise it ends where they do. -/
structure IsAttempt (c : Cursor) (inner : Trace α) (v : Value α) (t : Trace α) : Prop where
  failure : ∀ e, inner.failure = some e →
    t.answers = [.mk (.error e) c.position inner.answers] ∧ t.failure = some e ∧ t.cursor = c
  success : inner.failure = none →
    t.answers = [.mk (.ok v) inner.cursor.position inner.answers] ∧ t.failure = none ∧
      t.cursor = inner.cursor

/-- The parser that runs a list of steps. -/
def block (steps : List (Step α)) : Parser (List (Answer α)) := fun c =>
  let t := run steps c
  let result := match t.failure with
    | none => .ok t.answers
    | some e => .error e
  ⟨result, t.cursor, t.log⟩

/-- A trace fails, stops and logs as a parser does. -/
structure EndsAs {β : Type} (t : Trace α) (o : Outcome β) : Prop where
  failure_eq : t.failure = match o.result with
    | .ok _ => none
    | .error e => some e
  cursor_eq : t.cursor = o.cursor
  log_eq : t.log = o.log

theorem EndsAs.attempt (steps : List (Step α)) (c : Cursor) :
    EndsAs (runStep (.attempt steps) c) ((block steps).attempt c) := by
  rw [runStep, Trace.settle, Parser.attempt, block]
  rcases run steps c with ⟨answers, _ | e, d, log⟩
  · exact ⟨rfl, rfl, rfl⟩
  · exact ⟨rfl, rfl, rfl⟩

theorem EndsAs.recognizeSteps (steps : List (Step α)) (c : Cursor) :
    EndsAs (runStep (.recognizeSteps steps) c) ((block steps).recognize c) := by
  rw [runStep, Trace.settle, Parser.recognize_apply, Parser.attempt, block]
  rcases run steps c with ⟨answers, _ | e, d, log⟩
  · exact ⟨rfl, rfl, rfl⟩
  · exact ⟨rfl, rfl, rfl⟩

theorem isAttempt_settle (c : Cursor) (inner : Trace α) (v : Value α) :
    IsAttempt c inner v
      { (inner.settle c v).2 with answers := [(inner.settle c v).1] } := by
  constructor
  · intro e he
    rw [Trace.settle, he]
    exact ⟨rfl, rfl, rfl⟩
  · intro hnone
    rw [Trace.settle, hnone]
    exact ⟨rfl, hnone, rfl⟩

theorem IsAttempt.steady (h : IsAttempt c inner v t) (hinner : Runs c inner.answers inner.cursor)
    (hv : ∀ bs, v.text? = some bs → c.Passes bs inner.cursor) : ∃ answer, Steady c t answer := by
  rcases hfailure : inner.failure with _ | e
  · obtain ⟨hanswers, hnone, hcursor⟩ := h.success hfailure
    refine ⟨_, hanswers, congrArg Cursor.position hcursor.symm, ?_, ?_, ?_, ?_, ?_, ?_⟩
    · exact ⟨⟨hinner.reaches.position_le, fun bs hbs => (hv bs hbs).drop_take_eq⟩,
        hinner.lawful, hinner.le_positions, fun _ _ => hinner.endOf_eq.symm⟩
    · exact List.forall_mem_cons.mpr ⟨hinner.reaches.position_le, hinner.le_positions⟩
    · rw [hcursor]
      exact hinner.reaches
    · intro e he
      cases he
    · intro e he
      rw [hnone] at he
      cases he
    · intro w bs hw hbs
      cases hw
      rw [hcursor]
      exact hv bs hbs
  · obtain ⟨hanswers, hsome, hcursor⟩ := h.failure e hfailure
    refine ⟨_, hanswers, congrArg Cursor.position hcursor.symm, ?_, ?_, ?_, ?_, ?_, ?_⟩
    · exact ⟨rfl, hinner.lawful, hinner.le_positions, nofun⟩
    · exact List.forall_mem_cons.mpr ⟨Nat.le_refl _, hinner.le_positions⟩
    · rw [hcursor]
      exact .refl c
    · exact fun _ _ => hcursor
    · intro e' he
      rw [hsome] at he
      cases he
      rfl
    · intro w bs hw
      cases hw

/-! ## Lists of steps -/

theorem Runs.nil (c : Cursor) : Runs c ([] : List (Answer α)) c :=
  ⟨trivial, nofun, rfl, .refl c, fun _ => ⟨[], rfl, .refl c⟩⟩

theorem Runs.cons (h : Steady c t answer) (hrest : Runs t.cursor answers d) :
    Runs c (answer :: answers) d := by
  refine ⟨⟨h.lawful, ?_⟩, ?_, ?_, h.reaches.trans hrest.reaches, ?_⟩
  · rw [h.position_eq, ← h.reaches.input_eq]
    exact hrest.lawful
  · refine List.forall_mem_append.mpr ⟨h.le_positions, fun q hq => ?_⟩
    exact Nat.le_trans h.reaches.position_le (hrest.le_positions q hq)
  · rw [← hrest.endOf_eq, ← h.position_eq]
    rfl
  · intro hc
    obtain ⟨texts, htexts, hpass⟩ := hrest.consumed_eq (h.reaches.onBoundary hc)
    rw [h.reaches.input_eq] at htexts
    rw [consumed, h.position_eq, htexts, Bytes.ok_bind]
    rcases hresult : answer.result with e | v
    · -- A caught failure consumes nothing.
      rw [h.restores e hresult] at hpass
      exact ⟨texts, rfl, hpass⟩
    · refine ⟨t.cursor.since c.position :: texts, ?_, h.reaches.passes_since.trans hpass⟩
      simp only [h.reaches.slice_eq_ok hc, Bytes.ok_bind]
      rfl

theorem runs_run (hsteps : ∀ s ∈ steps, ∀ c, ∃ answer, Steady c (runStep s c) answer)
    (c : Cursor) : Runs c (run steps c).answers (run steps c).cursor := by
  induction steps generalizing c with
  | nil => exact .nil c
  | cons s steps ih =>
    obtain ⟨hs, hsteps⟩ := List.forall_mem_cons.mp hsteps
    obtain ⟨answer, hanswer⟩ := hs c
    rw [run]
    rcases (runStep s c).failure with _ | e
    · dsimp only
      rw [hanswer.answers_eq]
      exact .cons hanswer (ih hsteps _)
    · dsimp only
      rw [hanswer.answers_eq]
      exact .cons hanswer (.nil _)

theorem IsAttempt.attempt (steps : List (Step α)) (c : Cursor) :
    IsAttempt c (run steps c) .nothing (runStep (.attempt steps) c) := by
  rw [runStep]
  exact isAttempt_settle c (run steps c) .nothing

theorem IsAttempt.recognizeSteps (steps : List (Step α)) (c : Cursor) :
    IsAttempt c (run steps c) (.matchedSteps ((run steps c).cursor.since c.position))
      (runStep (.recognizeSteps steps) c) := by
  rw [runStep]
  exact isAttempt_settle c (run steps c) _

/-- An induction on the script: the steps inside an attempt make one run from its mark. -/
theorem Step.Admissible.steady (hs : s.Admissible) (c : Cursor) :
    ∃ answer, Steady c (runStep s c) answer := by
  induction hs generalizing c with
  | peek => exact steady_map .peek nofun fun _ => rfl
  | rest => exact steady_ofParser (.refl c) nofun fun _ _ _ h hbs => by cases h; cases hbs
  | isAtEnd => exact steady_ofParser (.refl c) nofun fun _ _ _ h hbs => by cases h; cases hbs
  | eat hb =>
    refine steady_map (.eat hb) ?_ fun _ => rfl
    intro e d h
    rw [Parser.eval_eat] at h
    split at h <;> cases h
  | takeWhile m => exact steady_map (.takeWhile m) nofun fun _ => rfl
  | expect hb literal =>
    refine steady_map (.expect hb literal) ?_ fun _ => rfl
    intro e d h
    rw [Parser.eval_expect] at h
    split at h <;> cases h
    rfl
  | finish literal =>
    refine steady_map (.finish literal) ?_ fun _ => rfl
    intro e d h
    rw [Parser.eval_finish] at h
    exact (congrArg Prod.snd h).symm
  | fail e => exact steady_ofParser (.refl c) (fun _ _ h => (congrArg Prod.snd h).symm) nofun
  | parse hp =>
    exact steady_map hp.orderly.forward (fun _ _ h => hp.orderly.restores h) fun _ => rfl
  | recognize hp =>
    have horderly := hp.orderly.recognize
    apply steady_ofParser ((horderly.map _).forward.reaches c)
    · exact fun _ _ h => (horderly.map _).restores h
    · intro v d bs h hbs
      obtain ⟨⟨a, text⟩, heval, rfl⟩ := Parser.eval_map_eq_ok h
      cases hbs
      have hsince := Parser.since_of_eval_recognize heval
      rw [hsince]
      exact (horderly.success heval).1.passes_since
  | attempt _ ih =>
    have hinner := runs_run ih c
    exact (IsAttempt.attempt _ c).steady hinner nofun
  | recognizeSteps _ ih =>
    have hinner := runs_run ih c
    refine (IsAttempt.recognizeSteps _ c).steady hinner ?_
    intro bs hbs
    cases hbs
    exact hinner.reaches.passes_since
  | tolerate _ ih =>
    obtain ⟨answer, h⟩ := ih c
    exact ⟨answer, h.answers_eq, h.position_eq, h.lawful, h.le_positions, h.reaches, h.restores,
      nofun, h.matched⟩

/-! ## Whole scripts -/

/-- At every depth of a script, attempts that fail leave no trace, attempts that succeed keep what
their steps reached, and nothing goes back behind a mark. The texts that the steps of a script
consume and the unread text make up its input. -/
theorem nested_attempts_backtrack (hsteps : ∀ s ∈ steps, s.Admissible) :
    (∀ s ∈ steps, ∀ c, ∃ answer, Steady c (runStep s c) answer) ∧
    (∀ c, Runs c (run steps c).answers (run steps c).cursor) ∧
    (∀ c, IsAttempt c (run steps c) .nothing (runStep (.attempt steps) c) ∧
      EndsAs (runStep (.attempt steps) c) ((block steps).attempt c)) ∧
    (∀ c, ∃ bs, c.Passes bs (run steps c).cursor ∧
      IsAttempt c (run steps c) (.matchedSteps bs) (runStep (.recognizeSteps steps) c) ∧
      EndsAs (runStep (.recognizeSteps steps) c) ((block steps).recognize c)) ∧
    ∀ s : String,
      LawfulFrom (Bytes.ofString s) 0 (run steps (.ofString s)).answers ∧
      ∃ texts, consumed (Bytes.ofString s) 0 (run steps (.ofString s)).answers = .ok texts ∧
        texts.flatten ++ (run steps (.ofString s)).cursor.unread = Bytes.ofString s := by
  have hsteady := fun s hs c => (hsteps s hs).steady c
  have hruns := runs_run hsteady
  refine ⟨hsteady, hruns, fun c => ⟨.attempt steps c, .attempt steps c⟩, ?_, ?_⟩
  · intro c
    exact ⟨_, (hruns c).reaches.passes_since, .recognizeSteps steps c, .recognizeSteps steps c⟩
  · intro s
    have hstart := Cursor.ofString_onBoundary s
    obtain ⟨texts, htexts, hpass⟩ := (hruns (.ofString s)).consumed_eq hstart
    exact ⟨(hruns (.ofString s)).lawful, texts, htexts, hpass.1.symm⟩

/-- Digits, a caught attempt with one inside it that succeeds and is undone, and a separator with a
caught attempt after it. -/
def caughtTwice : List (Step Unit) :=
  [.takeWhile Byte.isDigit,
    .tolerate (.attempt
      [.eat Byte.colon, .attempt [.takeWhile fun _ => true], .expect Byte.dot .ipv4]),
    .recognizeSteps [.eat Byte.colon, .tolerate (.attempt [.eat Byte.dash, .finish .port])]]

theorem caughtTwice_admissible : ∀ s ∈ caughtTwice, s.Admissible := by
  rintro s (_ | ⟨_, _ | ⟨_, _ | ⟨_, ⟨⟩⟩⟩⟩)
  · exact .takeWhile _
  · apply Step.Admissible.tolerate
    apply Step.Admissible.attempt
    rintro s (_ | ⟨_, _ | ⟨_, _ | ⟨_, ⟨⟩⟩⟩⟩)
    · exact .eat rfl
    · exact .attempt (by rintro s (_ | ⟨_, ⟨⟩⟩); exact .takeWhile _)
    · exact .expect rfl _
  · apply Step.Admissible.recognizeSteps
    rintro s (_ | ⟨_, _ | ⟨_, ⟨⟩⟩⟩)
    · exact .eat rfl
    · apply Step.Admissible.tolerate
      apply Step.Admissible.attempt
      rintro s (_ | ⟨_, _ | ⟨_, ⟨⟩⟩⟩)
      · exact .eat rfl
      · exact .finish _

theorem nested_attempts_backtrack_caughtTwice :
    (∀ s ∈ caughtTwice, s.Admissible) ∧
    (run caughtTwice (.ofString "42:-7")).cursor.position = 3 ∧
    LawfulFrom (Bytes.ofString "42:-7") 0 (run caughtTwice (.ofString "42:-7")).answers ∧
    ∃ texts,
      consumed (Bytes.ofString "42:-7") 0 (run caughtTwice (.ofString "42:-7")).answers =
        .ok texts ∧
      texts.flatten ++ (run caughtTwice (.ofString "42:-7")).cursor.unread =
        Bytes.ofString "42:-7" :=
  ⟨caughtTwice_admissible, rfl,
    (nested_attempts_backtrack caughtTwice_admissible).2.2.2.2 "42:-7"⟩

end NetLiteral.Script
