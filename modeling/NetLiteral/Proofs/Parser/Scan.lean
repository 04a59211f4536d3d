import NetLiteral.Proofs.Parser.Progress

/-!
# Scans

A scan is a parser that knows the whole text and its offset in it, and slices what it consumed out
of the text. Every slice is checked, so a scan may be stopped by a fault. A scan that follows a
parser does the same from every offset between two characters, and is never stopped there.
-/

namespace NetLiteral

/-- Gives, at an offset in a text, a value or a failure and the offset it stopped at. -/
def Scan (α : Type) : Type :=
  Bytes → Nat → Except Fault (Except Failure α × Nat)

namespace Scan

variable {α β : Type}

/-! ## Steps -/

def succeed (a : α) : Scan α :=
  fun _ offset => .ok (.ok a, offset)

def fail (e : Failure) : Scan α :=
  fun _ offset => .ok (.error e, offset)

def andThen (q : Scan α) (k : α → Scan β) : Scan β :=
  fun text offset => do
    match ← q text offset with
    | (.ok a, stop) => k a text stop
    | (.error e, stop) => return (.error e, stop)

instance : Monad Scan where
  pure := succeed
  bind := andThen

/-- The result of a computation that may be stopped. -/
def checked (x : Except Fault α) : Scan α :=
  fun _ offset => (fun a => (.ok a, offset)) <$> x

def position : Scan Nat :=
  fun _ offset => .ok (.ok offset, offset)

def peek : Scan (Option UInt8) :=
  fun text offset => .ok (.ok text[offset]?, offset)

def eat (b : UInt8) : Scan Bool :=
  fun text offset =>
    if text[offset]? = some b then .ok (.ok true, offset + 1) else .ok (.ok false, offset)

def expect (b : UInt8) (literal : Literal) : Scan Unit :=
  fun text offset =>
    if text[offset]? = some b then .ok (.ok (), offset + 1)
    else .ok (.error ⟨literal, offset, .expected (Char.ofUInt8 b)⟩, offset)

def finish (literal : Literal) : Scan Unit :=
  fun text offset =>
    if offset = text.length then .ok (.ok (), offset)
    else .ok (.error ⟨literal, offset, .trailing⟩, offset)

def takeWhile (isMember : UInt8 → Bool) : Scan Bytes :=
  fun text offset => do
    let rest ← Bytes.after text offset
    let count := (rest.takeWhile fun b => Bytes.isAscii b && isMember b).length
    let run ← Bytes.slice text offset (offset + count)
    return (.ok run, offset + count)

def since (start : Nat) : Scan Bytes :=
  fun text offset => do return (.ok (← Bytes.slice text start offset), offset)

def attempt (q : Scan α) : Scan α :=
  fun text offset => do
    match ← q text offset with
    | (.ok a, stop) => return (.ok a, stop)
    | (.error e, _) => return (.error e, offset)

def mapFailure (g : Failure → Failure) (q : Scan α) : Scan α :=
  fun text offset => do
    let (result, stop) ← q text offset
    return (result.mapError g, stop)

/-- Runs `q` and then, if it failed, the scan for that failure. -/
def orElse (q : Scan α) (k : Failure → Scan α) : Scan α :=
  fun text offset => do
    match ← q text offset with
    | (.ok a, stop) => return (.ok a, stop)
    | (.error e, stop) => k e text stop

def choice (e : Failure) : List (Scan α) → Scan α
  | [] => fail e
  | q :: qs => q.orElse fun e' => choice (e.furthest e') qs

/-- Reads the whole of a text. -/
def parseAll (literal : Literal) (q : Scan α) (text : Bytes) : Except Fault (Except Failure α) :=
  Prod.fst <$> (do let a ← q; finish literal; return a : Scan α) text 0

/-! ## Values that scans give -/

section

variable {q : Scan α} {k : α → Scan β} {text : Bytes} {offset stop : Nat} {a : α} {b : β}

theorem bind_eq_ok (h : (q >>= k) text offset = .ok (.ok b, stop)) :
    ∃ a mid, q text offset = .ok (.ok a, mid) ∧ k a text mid = .ok (.ok b, stop) := by
  change q.andThen k text offset = _ at h
  rw [andThen] at h
  rcases hq : q text offset with fault | ⟨e | a, mid⟩ <;> rw [hq] at h
  · cases h
  · cases h
  · exact ⟨a, mid, rfl, h⟩

/-- How a scan goes on matters only for the values that it gives. -/
theorem bind_congr {k' : α → Scan β}
    (h : ∀ {text offset a stop}, q text offset = .ok (.ok a, stop) →
      k a text stop = k' a text stop) : q >>= k = q >>= k' := by
  funext text offset
  change q.andThen k text offset = q.andThen k' text offset
  rw [andThen, andThen]
  rcases hq : q text offset with fault | ⟨e | a, stop⟩
  · rfl
  · rfl
  · exact h hq

theorem attempt_eq_ok (h : q.attempt text offset = .ok (.ok a, stop)) :
    q text offset = .ok (.ok a, stop) := by
  rw [attempt] at h
  rcases hq : q text offset with fault | ⟨e | a', mid⟩ <;> rw [hq] at h
  · cases h
  · cases h
  · cases h
    rfl

theorem checked_eq_ok {x : Except Fault α} (h : checked x text offset = .ok (.ok a, stop)) :
    x = .ok a := by
  rw [checked] at h
  cases x with
  | error fault => cases h
  | ok a' =>
    cases h
    rfl

/-- What a class takes is ASCII. -/
theorem isAscii_of_takeWhile {m : UInt8 → Bool} {run : Bytes}
    (h : takeWhile m text offset = .ok (.ok run, stop)) :
    ∀ b ∈ run, Bytes.isAscii b = true := by
  intro b hb
  rw [takeWhile] at h
  rcases hafter : Bytes.after text offset with fault | rest <;> rw [hafter] at h
  · cases h
  simp only [Bytes.ok_bind] at h
  rcases hslice : Bytes.slice text offset _ with fault | run' <;> rw [hslice] at h
  · cases h
  cases h
  rw [Bytes.eq_of_after_eq_ok hafter] at hslice
  rw [Bytes.eq_of_slice_eq_ok hslice, List.drop_take, Nat.add_sub_cancel_left] at hb
  have hprefix := List.takeWhile_prefix (l := text.drop offset) fun b => Bytes.isAscii b && m b
  rw [← List.prefix_iff_eq_take.mp hprefix] at hb
  have hmember := List.all_eq_true.mp List.all_takeWhile b hb
  exact ((Bool.and_eq_true _ _).mp hmember).1

theorem parseAll_eq_ok {literal : Literal} (h : parseAll literal q text = .ok (.ok a)) :
    ∃ stop, q text 0 = .ok (.ok a, stop) := by
  rw [parseAll] at h
  rcases hq : (do let a ← q; finish literal; return a : Scan α) text 0 with fault | ⟨r, stop⟩ <;>
    rw [hq] at h <;> cases h
  obtain ⟨a', mid, hq', hrest⟩ := bind_eq_ok hq
  obtain ⟨u, mid', -, hlast⟩ := bind_eq_ok hrest
  cases hlast
  exact ⟨mid, hq'⟩

end

/-! ## Inside a character -/

/-- Inside a character `q` is stopped, since nothing can be sliced out of the text there. -/
def StopsInside (q : Scan α) : Prop :=
  ∀ text offset, offset ≤ text.length → Bytes.isBoundary text offset = false →
    q text offset = .error .insideCharacter

namespace StopsInside

theorem takeWhile (m : UInt8 → Bool) : (Scan.takeWhile m).StopsInside := by
  intro text offset hle h
  have hrun : ((text.drop offset).takeWhile fun b => Bytes.isAscii b && m b).length ≤
      text.length - offset := by
    rw [← List.length_drop]
    exact (List.takeWhile_prefix _).length_le
  rw [Scan.takeWhile, Bytes.after, if_neg (by omega), Bytes.ok_bind]
  dsimp only
  rw [Bytes.slice_eq_insideCharacter (by omega) (by omega) (.inl h)]
  rfl

theorem bind {q : Scan α} (hq : q.StopsInside) (k : α → Scan β) : (q >>= k).StopsInside := by
  intro text offset hle h
  change q.andThen k text offset = _
  rw [andThen, hq text offset hle h]
  rfl

theorem map {q : Scan α} (hq : q.StopsInside) (g : α → β) : (g <$> q).StopsInside :=
  hq.bind fun a => pure (g a)

/-- To ask for the offset does not move on. -/
theorem position {k : Nat → Scan β} (hk : ∀ start, (k start).StopsInside) :
    (Scan.position >>= k).StopsInside :=
  fun text offset hle h => hk offset text offset hle h

theorem attempt {q : Scan α} (hq : q.StopsInside) : q.attempt.StopsInside := by
  intro text offset hle h
  rw [Scan.attempt, hq text offset hle h]
  rfl

end StopsInside

theorem since_eq_insideCharacter {text : Bytes} {start offset : Nat} (hstart : start ≤ offset)
    (hle : offset ≤ text.length) (h : Bytes.isBoundary text offset = false) :
    since start text offset = .error .insideCharacter := by
  rw [since, Bytes.slice_eq_insideCharacter hstart hle (.inr h)]
  rfl

/-- An offset that the scan has gone back behind is out of bounds, wherever the scan stands. -/
theorem since_eq_outOfBounds (text : Bytes) {start offset : Nat} (h : offset < start) :
    since start text offset = .error .outOfBounds := by
  rw [since, Bytes.slice, if_pos (.inl h)]
  rfl

/-! ## Following a parser -/

/-- At `c` no access of `q` is stopped, and `q` ends as `p` does, with the value in the form
`raw`. -/
def FollowsAt (q : Scan β) (p : Parser α) (raw : α → β) (c : Cursor) : Prop :=
  q c.input c.position = .ok ((p.eval c).1.map raw, (p.eval c).2.position)

/-- `q` follows `p` from every place between two characters. -/
def Follows (q : Scan β) (p : Parser α) (raw : α → β) : Prop :=
  ∀ c : Cursor, c.OnBoundary → q.FollowsAt p raw c

end Scan

/-! ## Places in a text -/

/-- The longest run of bytes of a class that stands at an offset of a text. -/
def Bytes.runAt (m : UInt8 → Bool) (text : Bytes) (offset : Nat) : Bytes :=
  (text.drop offset).takeWhile m

namespace Cursor

theorem getElem?_position (c : Cursor) : c.input[c.position]? = c.peek := by
  rw [input, position, List.getElem?_append_right (Nat.le_refl _), Nat.sub_self, peek,
    List.head?_eq_getElem?]

theorem isAtEnd_iff {c : Cursor} : c.isAtEnd = true ↔ c.position = c.input.length := by
  rw [isAtEnd, position, input, List.length_append, List.isEmpty_iff, ← List.length_eq_zero_iff]
  omega

/-- A class of ASCII bytes takes all of its bytes that stand at an offset. -/
theorem run_place {m : UInt8 → Bool} (hm : ∀ b, m b = true → Bytes.isAscii b = true)
    (text : Bytes) (offset : Nat) :
    (place text offset).run m = Bytes.runAt m text offset := by
  have hclass : (fun b => Bytes.isAscii b && m b) = m := by
    funext b
    cases hb : m b with
    | false => rw [Bool.and_false]
    | true => rw [hm b hb, Bool.and_self]
  rw [run, hclass, place, Bytes.runAt]

/-- What is unread at an offset is the run that stands there and what ends it. -/
theorem exists_place_eq (m : UInt8 → Bool) {text : Bytes} {offset : Nat} (h : offset ≤ text.length) :
    ∃ consumed rest, place text offset = ⟨consumed, Bytes.runAt m text offset ++ rest⟩ ∧
      consumed.length = offset ∧ EndsRun m rest := by
  refine ⟨text.take offset, (text.drop offset).dropWhile m, ?_, ?_, ?_⟩
  · rw [place, Bytes.runAt, List.takeWhile_append_dropWhile]
  · exact position_place h
  · intro b hb
    have hfirst := List.head?_dropWhile_not m (text.drop offset)
    rw [hb] at hfirst
    exact hfirst

theorem after_position (c : Cursor) : Bytes.after c.input c.position = .ok c.unread := by
  have hle := c.position_le_length
  rw [Bytes.after, if_neg (by omega), input, position, List.drop_left]

end Cursor

/-! ## Following -/

namespace Scan.FollowsAt

variable {α β γ δ : Type} {p : Parser α} {q : Scan γ} {raw : α → γ} {c d : Cursor}

theorem bind {f : α → Parser β} {k : γ → Scan δ} {raw' : β → δ} (hp : p.Forward)
    (hq : q.FollowsAt p raw c)
    (hk : ∀ a d, p.eval c = (.ok a, d) → (k (raw a)).FollowsAt (f a) raw' d) :
    (q >>= k).FollowsAt (p >>= f) raw' c := by
  change Scan.andThen q k c.input c.position = _
  rw [Scan.andThen, hq, Parser.eval_bind]
  rcases heval : p.eval c with ⟨e | a, d⟩
  · rfl
  · rw [← (hp.reaches_of_eval heval).input_eq]
    exact hk a d heval

theorem position {f : Nat → Parser β} {k : Nat → Scan δ} {raw' : β → δ}
    (hk : (k c.position).FollowsAt (f c.position) raw' c) :
    (Scan.position >>= k).FollowsAt (Parser.position >>= f) raw' c := by
  rw [FollowsAt, Parser.eval_bind_of_ok (Parser.eval_position c)]
  exact hk

/-- What was passed over since an earlier place can be sliced out. -/
theorem since {k : Bytes → Scan γ} (hreach : c.Reaches d) (hc : c.OnBoundary)
    (hk : (k (d.since c.position)).FollowsAt p raw d) :
    (Scan.since c.position >>= k).FollowsAt p raw d := by
  have hslice := hreach.slice_eq_ok hc
  rw [← hreach.input_eq] at hslice
  change Scan.andThen (Scan.since c.position) k d.input d.position = _
  rw [Scan.andThen, Scan.since, hslice]
  exact hk

end Scan.FollowsAt

namespace Scan.Follows

variable {α β γ δ : Type} {p : Parser α} {q : Scan γ} {raw : α → γ}

theorem pure (a : α) {x : γ} (hx : raw a = x) :
    (Pure.pure x : Scan γ).Follows (Pure.pure a) raw := by
  intro c _
  rw [← hx]
  rfl

theorem fail (e : Failure) : (Scan.fail e).Follows (Parser.fail e) raw :=
  fun _ _ => rfl

theorem peek : Scan.peek.Follows Parser.peek id := by
  intro c _
  rw [FollowsAt, Scan.peek, c.getElem?_position]
  rfl

theorem eat (b : UInt8) : (Scan.eat b).Follows (Parser.eat b) id := by
  intro c _
  rw [FollowsAt, Scan.eat, c.getElem?_position, Parser.eval_eat]
  rcases c.eat?_cases b with ⟨hb, d, hd, hposition⟩ | ⟨hb, hd⟩
  · rw [if_pos hb, hd, ← hposition]
    rfl
  · rw [if_neg hb, hd]
    rfl

theorem expect (b : UInt8) (literal : Literal) :
    (Scan.expect b literal).Follows (Parser.expect b literal) id := by
  intro c _
  rw [FollowsAt, Scan.expect, c.getElem?_position, Parser.eval_expect]
  rcases c.eat?_cases b with ⟨hb, d, hd, hposition⟩ | ⟨hb, hd⟩
  · rw [if_pos hb, hd, ← hposition]
    rfl
  · rw [if_neg hb, hd]
    rfl

theorem finish (literal : Literal) :
    (Scan.finish literal).Follows (Parser.finish literal) id := by
  intro c _
  rw [FollowsAt, Scan.finish, Parser.eval_finish]
  split
  next hend =>
    rw [if_pos (Cursor.isAtEnd_iff.mpr hend)]
    rfl
  next hend =>
    rw [if_neg fun h => hend (Cursor.isAtEnd_iff.mp h)]
    rfl

theorem takeWhile (m : UInt8 → Bool) :
    (Scan.takeWhile m).Follows (Parser.takeWhile m) id := by
  intro c hc
  have hpass := c.passes_advance_run m
  have hslice := (c.reaches_advance_run m).slice_eq_ok hc
  rw [hpass.since_eq, hpass.position_eq] at hslice
  rw [FollowsAt, Parser.eval_takeWhile, hpass.position_eq, Scan.takeWhile, c.after_position,
    Bytes.ok_bind, ← Cursor.run]
  dsimp only
  rw [hslice]
  rfl

theorem bind {f : α → Parser β} {k : γ → Scan δ} {raw' : β → δ} (hp : p.Forward)
    (hq : q.Follows p raw)
    (hk : ∀ {c d a}, p.eval c = (.ok a, d) → (k (raw a)).Follows (f a) raw') :
    (q >>= k).Follows (p >>= f) raw' :=
  fun c hc => .bind hp (hq c hc) fun _ d h => hk h d ((hp.reaches_of_eval h).onBoundary hc)

theorem position {f : Nat → Parser β} {k : Nat → Scan δ} {raw' : β → δ}
    (hk : ∀ start, (k start).Follows (f start) raw') :
    (Scan.position >>= k).Follows (Parser.position >>= f) raw' :=
  fun c hc => .position (hk c.position c hc)

/-- Only the parser asks for its offset, to report it. -/
theorem position_right {f : Nat → Parser α} (hq : ∀ start, q.Follows (f start) raw) :
    q.Follows (Parser.position >>= f) raw := by
  intro c hc
  rw [FollowsAt, Parser.eval_bind_of_ok (Parser.eval_position c)]
  exact hq c.position c hc

theorem checked_pure {x : Except Fault γ} {a : α} (hx : x = .ok (raw a)) :
    (Scan.checked x).Follows (Pure.pure a) raw := by
  rw [hx]
  exact fun _ _ => rfl

theorem checked {x : Except Fault δ} {d : δ} {k : δ → Scan γ} (hx : x = .ok d)
    (hk : (k d).Follows p raw) : (Scan.checked x >>= k).Follows p raw := by
  rw [hx]
  exact hk

theorem map_left (hq : q.Follows p raw) (g : γ → δ) : (g <$> q).Follows p (g ∘ raw) := by
  intro c hc
  change Scan.andThen q (fun a => Scan.succeed (g a)) c.input c.position = _
  rw [Scan.andThen, hq c hc]
  rcases p.eval c with ⟨e | a, d⟩ <;> rfl

theorem map_right {g : α → β} {raw' : β → γ} (hq : q.Follows p (raw' ∘ g)) :
    q.Follows (g <$> p) raw' := by
  intro c hc
  rw [FollowsAt, hq c hc, Parser.eval_map]
  rcases p.eval c with ⟨e | a, d⟩ <;> rfl

theorem attempt (hq : q.Follows p raw) : q.attempt.Follows p.attempt raw := by
  intro c hc
  rw [FollowsAt, Scan.attempt, hq c hc, Parser.eval_attempt]
  rcases p.eval c with ⟨e | a, d⟩ <;> rfl

theorem mapFailure (hq : q.Follows p raw) (g : Failure → Failure) :
    (q.mapFailure g).Follows (p.mapFailure g) raw := by
  intro c hc
  rw [FollowsAt, Scan.mapFailure, hq c hc, Parser.eval_mapFailure]
  rcases p.eval c with ⟨e | a, d⟩ <;> rfl

theorem onFailure (hq : q.Follows p raw) (report : Failure → Log.Record) :
    q.Follows (p.onFailure report) raw := by
  intro c hc
  rw [FollowsAt, Parser.eval_onFailure]
  exact hq c hc

/-- A whole text begins and ends between characters, so reading all of it is never stopped. -/
theorem parseAll (hp : p.Forward) (hq : q.Follows p raw) (literal : Literal) (s : String) :
    q.parseAll literal (Bytes.ofString s) =
      .ok ((Parser.parseAll literal p (Bytes.ofString s)).value.map raw) := by
  have hwhole : (do let a ← q; Scan.finish literal; return a : Scan γ).Follows
      (do let a ← p; Parser.finish literal; return a) raw := by
    apply bind hp hq
    intro _ _ a _
    apply bind (.finish literal) (.finish literal)
    intro _ _ _ _
    exact pure a rfl
  have heval := hwhole _ (Cursor.ofString_onBoundary s)
  rw [FollowsAt] at heval
  rw [Parser.value_parseAll]
  exact congrArg (Prod.fst <$> ·) heval

/-- Between two characters of a text, what a scan gives is what the parser gives there. -/
theorem eq_ok_of_isBoundary (hq : q.Follows p raw) {s : String} {offset : Nat}
    (h : Bytes.isBoundary (Bytes.ofString s) offset = true) :
    q (Bytes.ofString s) offset =
      .ok ((p.eval (.place (Bytes.ofString s) offset)).1.map raw,
        (p.eval (.place (Bytes.ofString s) offset)).2.position) := by
  have hplace := hq _ (Cursor.onBoundary_place h)
  rwa [FollowsAt, Cursor.input_place, Cursor.position_place (Bytes.le_length_of_isBoundary h)]
    at hplace

theorem choice_nil (e : Failure) : (Scan.choice e []).Follows (Parser.choice e []) raw :=
  fun _ _ => rfl

theorem choice_cons (hp : p.Forward) (hq : q.Follows p raw) {ps : List (Parser α)}
    {qs : List (Scan γ)} (hqs : ∀ e, (Scan.choice e qs).Follows (Parser.choice e ps) raw)
    (e : Failure) : (Scan.choice e (q :: qs)).Follows (Parser.choice e (p :: ps)) raw := by
  intro c hc
  rw [FollowsAt, Scan.choice, Scan.orElse, hq c hc, Parser.eval_choice_cons]
  rcases heval : p.eval c with ⟨e' | a, d⟩
  · have hreach := hp.reaches_of_eval heval
    rw [← hreach.input_eq]
    exact hqs _ d (hreach.onBoundary hc)
  · rfl

end Scan.Follows

end NetLiteral
