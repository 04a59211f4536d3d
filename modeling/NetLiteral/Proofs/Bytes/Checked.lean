import NetLiteral.Proofs.Bytes.Encoding

/-!
# Access that can fault

Slices of a text and copies into places in which every offset and length is checked. A slice has to
lie in the text and to begin and end between two characters. A copy needs as many places as it has
values, all of them in bounds.
-/

namespace NetLiteral

/-- Why an access is stopped. -/
inductive Fault where
  | outOfBounds
  | insideCharacter
  | unequalLengths
  | negative
  deriving DecidableEq, Repr

namespace Bytes

variable {α : Type}

/-- Whether a character begins or the text ends at an offset. -/
def isBoundary (text : Bytes) (offset : Nat) : Bool :=
  offset == 0 || offset == text.length || text[offset]?.any fun b => !isContinuation b

/-- The part of a text between two offsets. -/
def slice (text : Bytes) (start stop : Nat) : Except Fault Bytes :=
  if stop < start ∨ text.length < stop then .error .outOfBounds
  else if isBoundary text start && isBoundary text stop then .ok ((text.take stop).drop start)
  else .error .insideCharacter

/-- The bytes of a text from an offset on, which need not be a text. -/
def after (text : Bytes) (offset : Nat) : Except Fault Bytes :=
  if text.length < offset then .error .outOfBounds else .ok (text.drop offset)

/-- Copies `source` over the places from `start` up to `stop`. -/
def overwrite (places : List α) (start stop : Nat) (source : List α) :
    Except Fault (List α) :=
  if stop < start ∨ places.length < stop then .error .outOfBounds
  else if source.length ≠ stop - start then .error .unequalLengths
  else .ok (places.take start ++ source ++ places.drop stop)

/-- The difference of two offsets. -/
def difference (m n : Nat) : Except Fault Nat :=
  if m < n then .error .negative else .ok (m - n)

/-! ## Accesses that succeed -/

@[simp] theorem ok_bind {β : Type} (a : α) (f : α → Except Fault β) : (.ok a >>= f) = f a :=
  rfl

@[simp] theorem map_ok {β : Type} (f : α → β) (a : α) :
    f <$> (.ok a : Except Fault α) = .ok (f a) :=
  rfl

theorem isBoundary_length_append {xs ys : Bytes}
    (h : ∀ b, ys.head? = some b → isContinuation b = false) :
    isBoundary (xs ++ ys) xs.length = true := by
  cases ys with
  | nil => simp [isBoundary]
  | cons b ys => simp [isBoundary, h b rfl]

theorem le_length_of_isBoundary {text : Bytes} {offset : Nat}
    (h : isBoundary text offset = true) : offset ≤ text.length := by
  apply Nat.le_of_not_lt
  intro hlt
  have hnone : text[offset]? = none := List.getElem?_eq_none (Nat.le_of_lt hlt)
  have hzero : offset ≠ 0 := by omega
  have hend : offset ≠ text.length := by omega
  simp [isBoundary, hnone, hzero, hend] at h

/-- What stands behind a boundary of a text does not go on with a character. -/
theorem not_isContinuation_of_isBoundary {s : String} {offset : Nat}
    (h : isBoundary (ofString s) offset = true) :
    ∀ b, ((ofString s).drop offset).head? = some b → isContinuation b = false := by
  intro b hb
  by_cases hzero : offset = 0
  · rw [hzero, List.drop_zero] at hb
    exact not_isContinuation_of_head? hb
  · rw [List.head?_drop] at hb
    have hend : offset ≠ (ofString s).length := by
      rintro rfl
      rw [List.getElem?_eq_none (Nat.le_refl _)] at hb
      cases hb
    simpa [isBoundary, hzero, hend, hb] using h

theorem slice_eq_ok {text : Bytes} {start stop : Nat} (hle : start ≤ stop)
    (hlength : stop ≤ text.length) (hstart : isBoundary text start = true)
    (hstop : isBoundary text stop = true) :
    slice text start stop = .ok ((text.take stop).drop start) := by
  rw [slice, if_neg (by omega), hstart, hstop]
  rfl

theorem slice_prefix (xs : Bytes) {ys : Bytes}
    (h : ∀ b, ys.head? = some b → isContinuation b = false) :
    slice (xs ++ ys) 0 xs.length = .ok xs := by
  rw [slice_eq_ok (Nat.zero_le _) (by simp) rfl (isBoundary_length_append h), List.take_left,
    List.drop_zero]

theorem slice_suffix (xs : Bytes) {ys : Bytes}
    (h : ∀ b, ys.head? = some b → isContinuation b = false) :
    slice (xs ++ ys) xs.length (xs ++ ys).length = .ok ys := by
  have hstop : isBoundary (xs ++ ys) (xs ++ ys).length = true := by simp [isBoundary]
  rw [slice_eq_ok (by simp) (Nat.le_refl _) (isBoundary_length_append h) hstop, List.take_length,
    List.drop_left]

theorem overwrite_eq_ok {places source : List α} {start stop : Nat} (hle : start ≤ stop)
    (hstop : stop ≤ places.length) (hlength : source.length = stop - start) :
    overwrite places start stop source = .ok (places.take start ++ source ++ places.drop stop) := by
  rw [overwrite, if_neg (by omega), if_neg (by omega)]

theorem difference_eq_ok {m n : Nat} (h : n ≤ m) : difference m n = .ok (m - n) :=
  if_neg (Nat.not_lt.mpr h)

/-! ## Accesses inside a character -/

theorem isBoundary_length_append_continuation {xs ys : Bytes} {x : UInt8} (hxs : xs ≠ [])
    (hx : isContinuation x = true) : isBoundary (xs ++ x :: ys) xs.length = false := by
  simp [isBoundary, hxs, hx]

theorem slice_eq_insideCharacter {text : Bytes} {start stop : Nat} (hle : start ≤ stop)
    (hlength : stop ≤ text.length)
    (h : isBoundary text start = false ∨ isBoundary text stop = false) :
    slice text start stop = .error .insideCharacter := by
  rw [slice, if_neg (by omega), if_neg]
  rcases h with h | h <;> simp [h]

/-! ## What a successful access gives -/

theorem eq_of_slice_eq_ok {text part : Bytes} {start stop : Nat}
    (h : slice text start stop = .ok part) : part = (text.take stop).drop start := by
  rw [slice] at h
  split at h
  next => cases h
  next =>
    split at h
    next => exact (Except.ok.inj h).symm
    next => cases h

theorem eq_of_after_eq_ok {text rest : Bytes} {offset : Nat} (h : after text offset = .ok rest) :
    rest = text.drop offset := by
  rw [after] at h
  split at h
  next => cases h
  next => exact (Except.ok.inj h).symm

end Bytes

end NetLiteral
