import NetLiteral.Cursor
import NetLiteral.Proofs.Bytes.Checked

/-!
# Moving on over ASCII bytes

A cursor reaches another one of its text if only ASCII bytes stand between the two. Each of these
bytes is a character of its own, so a cursor between two characters reaches only such cursors, and
what stands between them can be sliced out of the text.
-/

namespace NetLiteral.Cursor

variable {c d e : Cursor}

/-- Between `c` and `d` stands `text`. -/
def Passes (c : Cursor) (text : Bytes) (d : Cursor) : Prop :=
  c.unread = text ++ d.unread ∧ d.consumed = c.consumed ++ text

/-- Between `c` and `d` stand only ASCII bytes. -/
def Reaches (c d : Cursor) : Prop :=
  ∃ text : Bytes, (∀ b ∈ text, Bytes.isAscii b = true) ∧ c.Passes text d

theorem ofString_onBoundary (s : String) : (ofString s).OnBoundary :=
  ⟨"", s, rfl, rfl⟩

theorem take_position (c : Cursor) : c.input.take c.position = c.consumed :=
  List.take_left

namespace Passes

variable {text text' : Bytes}

theorem refl (c : Cursor) : c.Passes [] c :=
  ⟨rfl, (List.append_nil c.consumed).symm⟩

theorem trans (h : c.Passes text d) (h' : d.Passes text' e) : c.Passes (text ++ text') e := by
  constructor
  · rw [h.1, h'.1, List.append_assoc]
  · rw [h'.2, h.2, List.append_assoc]

theorem input_eq (h : c.Passes text d) : d.input = c.input := by
  rw [input, input, h.1, h.2, List.append_assoc]

theorem position_eq (h : c.Passes text d) : d.position = c.position + text.length := by
  rw [position, position, h.2, List.length_append]

theorem since_eq (h : c.Passes text d) : d.since c.position = text := by
  rw [since, h.2, position, List.drop_left]

theorem drop_take_eq (h : c.Passes text d) :
    (c.input.take d.position).drop c.position = text := by
  rw [← h.input_eq, d.take_position]
  exact h.since_eq

theorem left_eq (h : c.Passes text d) : c = ⟨c.consumed, text ++ d.unread⟩ := by
  rw [← h.1]

theorem right_eq (h : c.Passes text d) : d = ⟨c.consumed ++ text, d.unread⟩ := by
  rw [← h.2]

end Passes

namespace Reaches

theorem refl (c : Cursor) : c.Reaches c :=
  ⟨[], by simp, .refl c⟩

theorem trans (h : c.Reaches d) (h' : d.Reaches e) : c.Reaches e := by
  obtain ⟨text, hascii, hpass⟩ := h
  obtain ⟨text', hascii', hpass'⟩ := h'
  exact ⟨text ++ text', List.forall_mem_append.mpr ⟨hascii, hascii'⟩, hpass.trans hpass'⟩

theorem input_eq (h : c.Reaches d) : d.input = c.input := by
  obtain ⟨_, _, hpass⟩ := h
  exact hpass.input_eq

theorem position_le (h : c.Reaches d) : c.position ≤ d.position := by
  obtain ⟨_, _, hpass⟩ := h
  rw [hpass.position_eq]
  exact Nat.le_add_right _ _

theorem passes_since (h : c.Reaches d) : c.Passes (d.since c.position) d := by
  obtain ⟨_, _, hpass⟩ := h
  rwa [hpass.since_eq]

theorem isAscii_of_mem_since (h : c.Reaches d) :
    ∀ b ∈ d.since c.position, Bytes.isAscii b = true := by
  obtain ⟨_, hascii, hpass⟩ := h
  rw [hpass.since_eq]
  exact hascii

theorem onBoundary (h : c.Reaches d) (hc : c.OnBoundary) : d.OnBoundary := by
  obtain ⟨text, hascii, hunread, hconsumed⟩ := h
  obtain ⟨before, after, hbefore, hafter⟩ := hc
  have hd : d.consumed = Bytes.ofString (before ++ Bytes.toText text) := by
    rw [hconsumed, hbefore, Bytes.ofString_append, Bytes.ofString_toText hascii]
  rcases List.eq_nil_or_concat text with rfl | ⟨init, b, rfl⟩
  · exact ⟨_, after, hd, by rw [← hafter, hunread, List.nil_append]⟩
  · -- The last byte passed over is a character, so the text can be cut after it.
    have hb : Bytes.isAscii b = true := hascii b (by simp)
    rw [hafter, List.concat_eq_append, List.append_assoc, List.singleton_append] at hunread
    obtain ⟨_, rest, _, hrest⟩ := Bytes.exists_split_ofString hb hunread
    exact ⟨_, rest, hd, hrest⟩

end Reaches

theorem position_le_length (c : Cursor) : c.position ≤ c.input.length := by
  rw [position, input, List.length_append]
  exact Nat.le_add_right _ _

/-! ## Moves -/

theorem isAscii_of_mem_run {m : UInt8 → Bool} {b : UInt8} (hb : b ∈ c.run m) :
    Bytes.isAscii b = true := by
  have hmember := List.all_eq_true.mp List.all_takeWhile b hb
  exact ((Bool.and_eq_true _ _).mp hmember).1

theorem isMember_of_mem_run {m : UInt8 → Bool} {b : UInt8} (hb : b ∈ c.run m) : m b = true := by
  have hmember := List.all_eq_true.mp List.all_takeWhile b hb
  exact ((Bool.and_eq_true _ _).mp hmember).2

theorem passes_advance_run (c : Cursor) (m : UInt8 → Bool) :
    c.Passes (c.run m) (c.advance (c.run m).length) := by
  have hprefix : c.run m <+: c.unread := List.takeWhile_prefix _
  constructor
  · exact (List.prefix_iff_eq_append.mp hprefix).symm
  · rw [advance, ← List.prefix_iff_eq_take.mp hprefix]

theorem reaches_advance_run (c : Cursor) (m : UInt8 → Bool) :
    c.Reaches (c.advance (c.run m).length) :=
  ⟨c.run m, fun _ => isAscii_of_mem_run, c.passes_advance_run m⟩

theorem passes_of_eat? {b : UInt8} (h : c.eat? b = some d) : c.Passes [b] d := by
  simp only [eat?] at h
  split at h
  next => cases h
  next x rest hunread =>
    split at h
    next hx =>
      cases h
      exact ⟨by rw [hunread, hx]; rfl, rfl⟩
    next => cases h

theorem eat?_of_passes {b : UInt8} (h : c.Passes [b] d) : c.eat? b = some d := by
  rw [h.left_eq, h.right_eq]
  exact if_pos rfl

theorem eat?_cases (c : Cursor) (b : UInt8) :
    (c.peek = some b ∧ ∃ d, c.eat? b = some d ∧ d.position = c.position + 1) ∨
      (c.peek ≠ some b ∧ c.eat? b = none) := by
  obtain ⟨consumed, _ | ⟨x, rest⟩⟩ := c
  · exact .inr ⟨nofun, rfl⟩
  · by_cases hx : x = b
    · have hd : eat? ⟨consumed, x :: rest⟩ b = some ⟨consumed ++ [b], rest⟩ := if_pos hx
      exact .inl ⟨congrArg some hx, _, hd, (passes_of_eat? hd).position_eq⟩
    · exact .inr ⟨by simpa [peek] using hx, if_neg hx⟩

theorem reaches_of_eat? {b : UInt8} (hb : Bytes.isAscii b = true) (h : c.eat? b = some d) :
    c.Reaches d :=
  ⟨[b], by simpa using hb, passes_of_eat? h⟩

/-! ## Slices between cursors -/

theorem OnBoundary.not_isContinuation (hc : c.OnBoundary) :
    ∀ b, c.unread.head? = some b → Bytes.isContinuation b = false := by
  obtain ⟨_, after, _, hafter⟩ := hc
  intro b hb
  rw [hafter] at hb
  exact Bytes.not_isContinuation_of_head? hb

theorem OnBoundary.isBoundary (hc : c.OnBoundary) :
    Bytes.isBoundary c.input c.position = true :=
  Bytes.isBoundary_length_append hc.not_isContinuation

/-- What a cursor has passed over since an earlier one is a slice of the text. -/
theorem Reaches.slice_eq_ok (h : c.Reaches d) (hc : c.OnBoundary) :
    Bytes.slice c.input c.position d.position = .ok (d.since c.position) := by
  have hd : Bytes.isBoundary c.input d.position = true := by
    rw [← h.input_eq]
    exact (h.onBoundary hc).isBoundary
  have hlength := position_le_length d
  rw [h.input_eq] at hlength
  rw [Bytes.slice_eq_ok h.position_le hlength hc.isBoundary hd, ← h.input_eq, d.take_position]
  rfl

/-! ## Places in a text -/

/-- The cursor at an offset of a text. -/
def place (text : Bytes) (offset : Nat) : Cursor :=
  ⟨text.take offset, text.drop offset⟩

theorem input_place (text : Bytes) (offset : Nat) : (place text offset).input = text :=
  List.take_append_drop offset text

theorem position_place {text : Bytes} {offset : Nat} (h : offset ≤ text.length) :
    (place text offset).position = offset := by
  rw [position, place, List.length_take, Nat.min_eq_left h]

/-- A text can be cut at each of its boundaries. -/
theorem onBoundary_place {s : String} {offset : Nat}
    (h : Bytes.isBoundary (Bytes.ofString s) offset = true) :
    (place (Bytes.ofString s) offset).OnBoundary :=
  Bytes.exists_cut_ofString (List.take_append_drop offset _).symm
    (Bytes.not_isContinuation_of_isBoundary h)

end NetLiteral.Cursor
