import NetLiteral.Bytes

/-!
# Parts and separators

Splitting a text at a separator and joining parts by it undo each other, as long as no part holds
the separator. A reader that splits a text and reads every part accepts exactly the joined texts of
readable parts.
-/

namespace NetLiteral.Bytes

variable {α β : Type}

@[simp] theorem join_nil (sep : UInt8) : join sep [] = [] :=
  rfl

@[simp] theorem join_singleton (sep : UInt8) (p : Bytes) : join sep [p] = p :=
  List.intercalate_singleton

@[simp] theorem join_cons_cons (sep : UInt8) (p q : Bytes) (ps : List Bytes) :
    join sep (p :: q :: ps) = p ++ sep :: join sep (q :: ps) := by
  rw [join, List.intercalate_cons_cons, List.append_assoc]
  rfl

theorem join_cons_cons_left (sep b : UInt8) (p : Bytes) (ps : List Bytes) :
    join sep ((b :: p) :: ps) = b :: join sep (p :: ps) := by
  cases ps <;> simp

theorem forall_mem_join {P : UInt8 → Prop} {sep : UInt8} (hsep : P sep) {ps : List Bytes}
    (h : ∀ p ∈ ps, ∀ b ∈ p, P b) : ∀ b ∈ join sep ps, P b := by
  induction ps with
  | nil => simp
  | cons p ps ih =>
    obtain ⟨hp, hps⟩ := List.forall_mem_cons.mp h
    cases ps with
    | nil => simpa using hp
    | cons q ps =>
      intro b hb
      rw [join_cons_cons, List.mem_append, List.mem_cons] at hb
      rcases hb with hb | rfl | hb
      · exact hp b hb
      · exact hsep
      · exact ih hps b hb

theorem join_ne_nil {sep : UInt8} {ps : List Bytes} (hne : ps ≠ []) (h : ∀ p ∈ ps, p ≠ []) :
    join sep ps ≠ [] := by
  match ps with
  | [] => exact absurd rfl hne
  | [p] => simpa using h p
  | p :: q :: ps => simp

/-- A list of readings succeeds if each of them does. -/
theorem mapM_eq_some_iff {f : α → Option β} {xs : List α} {ys : List β} :
    xs.mapM f = some ys ↔ xs.map f = ys.map some := by
  induction xs generalizing ys with
  | nil => cases ys <;> simp
  | cons x xs ih =>
    rw [List.mapM_cons, List.map_cons]
    constructor
    · intro h
      obtain ⟨y, hy, hrest⟩ := Option.bind_eq_some_iff.mp h
      obtain ⟨ys', hys, hpure⟩ := Option.bind_eq_some_iff.mp hrest
      cases hpure
      rw [hy, ih.mp hys, List.map_cons]
    · intro h
      cases ys with
      | nil => cases h
      | cons y ys =>
        rw [List.map_cons, List.cons.injEq] at h
        rw [h.1, ih.mpr h.2]
        rfl

/-- Reading each of some values by a rule that says what is read and as what. -/
theorem map_eq_map_some_iff {f : α → Option β} {P : α → Prop} {g : α → β}
    (hf : ∀ x y, f x = some y ↔ P x ∧ g x = y) {xs : List α} {ys : List β} :
    xs.map f = ys.map some ↔ (∀ x ∈ xs, P x) ∧ ys = xs.map g := by
  induction xs generalizing ys with
  | nil => cases ys <;> simp
  | cons x xs ih =>
    cases ys with
    | nil => simp
    | cons y ys =>
      simp only [List.map_cons, List.cons.injEq, hf, ih, List.forall_mem_cons]
      constructor
      · rintro ⟨⟨hx, hy⟩, hxs, hys⟩
        exact ⟨⟨hx, hxs⟩, hy.symm, hys⟩
      · rintro ⟨⟨hx, hxs⟩, hy, hys⟩
        exact ⟨⟨hx, hy.symm⟩, hxs, hys⟩

/-- Reading the parts of a text is reading parts that the text joins, if no part that can be read
holds the separator. -/
theorem mapM_splitOn_eq_some_iff {f : Bytes → Option β} {P : Bytes → Prop} {g : Bytes → β}
    {sep : UInt8} (hf : ∀ p x, f p = some x ↔ P p ∧ g p = x) (hsep : ∀ p, P p → sep ∉ p)
    {text : Bytes} {ys : List β} :
    (text.splitOn sep).mapM f = some ys ↔
      ∃ ps : List Bytes, ps ≠ [] ∧ (∀ p ∈ ps, P p) ∧ text = join sep ps ∧ ys = ps.map g := by
  rw [mapM_eq_some_iff, map_eq_map_some_iff hf]
  constructor
  · rintro ⟨hps, hys⟩
    exact ⟨text.splitOn sep, List.splitOn_ne_nil sep text, hps,
      (List.intercalate_splitOn sep).symm, hys⟩
  · rintro ⟨ps, hne, hps, rfl, hys⟩
    rw [join, List.splitOn_intercalate sep (fun p hp => hsep p (hps p hp)) hne]
    exact ⟨hps, hys⟩

/-- As many parts are joined as there are values, if there are any. -/
theorem mapM_splitOn_eq_some_iff_of_length {f : Bytes → Option β} {P : Bytes → Prop}
    {g : Bytes → β} {sep : UInt8} (hf : ∀ p x, f p = some x ↔ P p ∧ g p = x)
    (hsep : ∀ p, P p → sep ∉ p) {text : Bytes} {n : Nat} (hn : n ≠ 0) {ys : List β}
    (hlength : ys.length = n) :
    (text.splitOn sep).mapM f = some ys ↔
      ∃ ps : List Bytes, ps.length = n ∧ (∀ p ∈ ps, P p) ∧ text = join sep ps ∧
        ys = ps.map g := by
  rw [mapM_splitOn_eq_some_iff hf hsep]
  constructor
  · rintro ⟨ps, _, hps, htext, rfl⟩
    exact ⟨ps, by rw [← hlength, List.length_map], hps, htext, rfl⟩
  · rintro ⟨ps, hparts, hps, htext, hys⟩
    refine ⟨ps, ?_, hps, htext, hys⟩
    rintro rfl
    exact hn hparts.symm

theorem map_join (g : UInt8 → UInt8) (sep : UInt8) (ps : List Bytes) :
    (join sep ps).map g = join (g sep) (ps.map (List.map g)) := by
  induction ps with
  | nil => rfl
  | cons p ps ih =>
    cases ps with
    | nil => simp
    | cons q ps =>
      rw [join_cons_cons, List.map_append, List.map_cons, ih]
      simp only [List.map_cons, join_cons_cons]

/-- Reads a number of parts one after another, and no part may be left after them. -/
def readParts? (f : α → Option β) : Nat → List α → Option (List β)
  | 0, [] => some []
  | 0, _ :: _ => none
  | _ + 1, [] => none
  | n + 1, p :: ps => do
    let x ← f p
    let xs ← readParts? f n ps
    return x :: xs

/-- Stopping at the first part that cannot be read, or is one too many, loses no reading. -/
theorem readParts?_eq_some_iff {f : α → Option β} {n : Nat} {ps : List α} {xs : List β} :
    readParts? f n ps = some xs ↔ ps.mapM f = some xs ∧ xs.length = n := by
  induction n generalizing ps xs with
  | zero =>
    rw [List.length_eq_zero_iff, mapM_eq_some_iff]
    cases ps <;> cases xs <;> simp [readParts?]
  | succ n ih =>
    cases ps with
    | nil => cases xs <;> simp [readParts?]
    | cons p ps =>
      simp only [readParts?, List.mapM_cons, Option.bind_eq_bind, Option.bind_eq_some_iff, ih,
        Option.pure_def, Option.some.injEq]
      constructor
      · rintro ⟨x, hx, ys, ⟨hys, hlength⟩, rfl⟩
        exact ⟨⟨x, hx, ys, hys, rfl⟩, congrArg (· + 1) hlength⟩
      · rintro ⟨⟨x, hx, ys, hys, rfl⟩, hlength⟩
        exact ⟨x, hx, ys, ⟨hys, Nat.succ.inj hlength⟩, rfl⟩

/-- A separator stands between any two parts. -/
theorem length_le_count_join (sep : UInt8) (ps : List Bytes) :
    ps.length ≤ (join sep ps).count sep + 1 := by
  induction ps with
  | nil => exact Nat.zero_le _
  | cons p ps ih =>
    cases ps with
    | nil => exact Nat.le_add_left 1 _
    | cons q ps =>
      rw [join_cons_cons, List.count_append, List.count_cons_self, List.length_cons]
      omega

theorem mem_join {sep : UInt8} {ps : List Bytes} (h : 2 ≤ ps.length) : sep ∈ join sep ps := by
  have hcount := length_le_count_join sep ps
  exact List.count_pos_iff.mp (by omega)

end NetLiteral.Bytes
