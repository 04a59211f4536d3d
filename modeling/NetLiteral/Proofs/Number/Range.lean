import NetLiteral.Proofs.Reader.Scan

/-!
# Integers of a range

The longest run of digits at a place between two characters is read exactly if the number it denotes
lies in the range, however long the run is and however many zeros it begins with. Accumulating it in
32 bits overflows only where the number itself is too great, and narrowing a port or a prefix length
that was read changes nothing. Inside a character nothing can be sliced out of the text, and reading
is stopped.
-/

namespace NetLiteral

open Numeral (Denotes)

/-! ## Checked steps -/

namespace Numeral

def mul32? (m n : UInt32) : Option UInt32 :=
  fit32? (m.toNat * n.toNat)

def add32? (m n : UInt32) : Option UInt32 :=
  fit32? (m.toNat + n.toNat)

/-- One more digit in a 32-bit accumulator, by a multiplication and an addition that may fail. The
digit is a byte less that of zero, a difference that wraps for bytes below it. -/
def pushByte? (n : UInt32) (b : UInt8) : Option UInt32 := do
  let tens ← mul32? n 10
  add32? tens (b - 0x30).toUInt32

theorem toNat_sub_zero {b : UInt8} (h : Byte.isDigit b = true) :
    (b - 0x30).toUInt32.toNat = digitValue b := by
  have hle : 0x30 ≤ b := by
    rw [Byte.isDigit, Bool.and_eq_true, decide_eq_true_eq] at h
    exact h.1
  rw [UInt8.toNat_toUInt32, UInt8.toNat_sub_of_le _ _ hle, digitValue, if_pos h]
  rfl

/-- The two steps fail exactly where the number they lead to does not fit. -/
theorem pushByte?_eq {b : UInt8} (hb : Byte.isDigit b = true) (n : UInt32) :
    pushByte? n b = push32? n b := by
  have hten : (10 : UInt32).toNat = 10 := rfl
  rw [pushByte?, push32?_eq, mul32?, hten]
  cases htens : fit32? (n.toNat * 10) with
  | some tens =>
    have htens := fit32?_eq_some_iff.mp htens
    rw [Option.bind_eq_bind, Option.bind_some, add32?, toNat_sub_zero hb, ← htens, Nat.mul_comm]
  | none =>
    have hsize := fit32?_eq_none_iff.mp htens
    exact (fit32?_eq_none_iff.mpr (by omega)).symm

theorem foldlM_pushByte? {digits : Bytes} (h : ∀ b ∈ digits, Byte.isDigit b = true) (n : UInt32) :
    digits.foldlM pushByte? n = digits.foldlM push32? n := by
  induction digits generalizing n with
  | nil => rfl
  | cons b bs ih =>
    obtain ⟨hb, hbs⟩ := List.forall_mem_cons.mp h
    rw [List.foldlM_cons, List.foldlM_cons, pushByte?_eq hb]
    exact congrArg _ (funext (ih hbs))

/-- Digit by digit, a number is accumulated unless it does not fit itself. -/
theorem foldlM_pushByte?_zero {digits : Bytes} (h : ∀ b ∈ digits, Byte.isDigit b = true) :
    digits.foldlM pushByte? 0 = fit32? (ofDecimal digits) :=
  (foldlM_pushByte? h 0).trans (decimal32?_eq digits)

end Numeral

/-! ## Readers of a range -/

namespace Parser

variable {α β : Type}

/-- `p` reads a run of digits, all of it, exactly if it denotes a number from `lo` to `hi`, as what
stands for that number by `value`. Otherwise it fails where the run begins and consumes nothing. -/
structure ReadsRange (p : Parser α) (literal : Literal) (lo hi : Nat) (value : α → Nat) :
    Prop where
  empty : ∀ consumed {rest}, EndsRun Byte.isDigit rest →
    p.eval ⟨consumed, rest⟩ = (.error ⟨literal, consumed.length, .empty⟩, ⟨consumed, rest⟩)
  inRange : ∀ consumed {digits rest n}, Denotes digits n → EndsRun Byte.isDigit rest →
    lo ≤ n ∧ n ≤ hi →
      ∃ a, p.eval ⟨consumed, digits ++ rest⟩ = (.ok a, ⟨consumed ++ digits, rest⟩) ∧ value a = n
  outOfRange : ∀ consumed {digits rest n}, Denotes digits n → EndsRun Byte.isDigit rest →
    ¬(lo ≤ n ∧ n ≤ hi) →
      p.eval ⟨consumed, digits ++ rest⟩ =
        (.error ⟨literal, consumed.length, .outOfRange⟩, ⟨consumed, digits ++ rest⟩)

/-- What is read may be narrowed to any type that holds the numbers of the range. -/
theorem ReadsRange.map {p : Parser α} {literal : Literal} {lo hi : Nat} {value : α → Nat}
    (h : p.ReadsRange literal lo hi value) {g : α → β} {value' : β → Nat}
    (hg : ∀ a, value a ≤ hi → value' (g a) = value a) :
    (g <$> p).ReadsRange literal lo hi value' := by
  constructor
  · intro consumed rest hrest
    rw [eval_map, h.empty consumed hrest]
    rfl
  · intro consumed digits rest n hdigits hrest hn
    obtain ⟨a, heval, rfl⟩ := h.inRange consumed hdigits hrest hn
    exact ⟨g a, by rw [eval_map, heval]; rfl, hg a hn.2⟩
  · intro consumed digits rest n hdigits hrest hn
    rw [eval_map, h.outOfRange consumed hdigits hrest hn]
    rfl

end Parser

namespace Number

variable {consumed digits rest : Bytes} {literal : Literal} {lo hi : UInt32}

theorem eval_unsigned_empty (hrest : EndsRun Byte.isDigit rest) :
    (unsigned literal lo hi).eval ⟨consumed, rest⟩ =
      (.error ⟨literal, consumed.length, .empty⟩, ⟨consumed, rest⟩) := by
  rw [eval_unsigned, if_pos (Cursor.run_eq_nil hrest)]
  rfl

theorem eval_unsigned_outOfRange {n : Nat} (hdigits : Denotes digits n)
    (hrest : EndsRun Byte.isDigit rest) (hn : ¬(lo.toNat ≤ n ∧ n ≤ hi.toNat)) :
    (unsigned literal lo hi).eval ⟨consumed, digits ++ rest⟩ =
      (.error ⟨literal, consumed.length, .outOfRange⟩, ⟨consumed, digits ++ rest⟩) := by
  have hrun : Cursor.run ⟨consumed, digits ++ rest⟩ Byte.isDigit = digits :=
    Cursor.run_append (fun b hb => ⟨hdigits.isAscii b hb, hdigits.isDigit b hb⟩) hrest
  rw [eval_unsigned, hrun, if_neg hdigits.ne_nil]
  cases hvalue : Numeral.decimal32? digits with
  | none => rfl
  | some m =>
    have hm : m.toNat = n :=
      (Numeral.decimal32?_eq_some_iff.mp hvalue).symm.trans hdigits.value_eq
    have hrange : ¬(lo ≤ m ∧ m ≤ hi) := by
      rw [UInt32.le_iff_toNat_le, UInt32.le_iff_toNat_le, hm]
      exact hn
    exact dif_neg hrange

theorem unsigned_readsRange (literal : Literal) (lo hi : UInt32) :
    (unsigned literal lo hi).ReadsRange literal lo.toNat hi.toNat fun n => n.val.toNat := by
  refine ⟨fun _ _ => eval_unsigned_empty, ?_, fun _ _ _ _ => eval_unsigned_outOfRange⟩
  intro consumed digits rest n hdigits hrest hn
  have hlt : n < UInt32.size := Nat.lt_of_le_of_lt hn.2 hi.toNat_lt
  have htoNat : (UInt32.ofNat n).toNat = n := UInt32.toNat_ofNat_of_lt' hlt
  have hrange : lo ≤ UInt32.ofNat n ∧ UInt32.ofNat n ≤ hi := by
    rw [UInt32.le_iff_toNat_le, UInt32.le_iff_toNat_le, htoNat]
    exact hn
  rw [← htoNat] at hdigits
  exact ⟨_, unsigned_reads literal hdigits hrange consumed rest hrest, htoNat⟩

theorem port_readsRange : port.ReadsRange .port 0 65535 UInt16.toNat := by
  apply (unsigned_readsRange .port 0 maxPort).map
  intro n hn
  have hmax : maxPort.toNat = 65535 := rfl
  rw [UInt32.toNat_toUInt16]
  exact Nat.mod_eq_of_lt (by omega)

end Number

namespace PrefixLength

theorem unsigned_readsRange (f : Family) :
    (Number.unsigned .prefixLength 0 (UInt32.ofNat f.bits)).ReadsRange .prefixLength 0 f.bits
      fun n => n.val.toNat := by
  have hbits : (UInt32.ofNat f.bits).toNat = f.bits := by cases f <;> rfl
  have h := Number.unsigned_readsRange .prefixLength 0 (UInt32.ofNat f.bits)
  rwa [hbits] at h

theorem parser_readsRange (f : Family) :
    (parser : Parser (PrefixLength f)).ReadsRange .prefixLength 0 f.bits len :=
  (unsigned_readsRange f).map fun _ _ => rfl

end PrefixLength

/-! ## Places of a text -/

namespace Scan

variable {α β : Type}

/-- At an offset of a text, `q` reads the longest run of digits there, all of it, exactly if it
denotes a number from `lo` to `hi`, as what stands for that number by `value`. Otherwise it fails
there and stays there. -/
structure ReadsRangeAt (q : Scan α) (literal : Literal) (lo hi : Nat) (value : α → Nat)
    (text : Bytes) (offset : Nat) : Prop where
  empty : Bytes.runAt Byte.isDigit text offset = [] →
    q text offset = .ok (.error ⟨literal, offset, .empty⟩, offset)
  inRange : ∀ {n}, Denotes (Bytes.runAt Byte.isDigit text offset) n → lo ≤ n ∧ n ≤ hi →
    ∃ a, value a = n ∧
      q text offset = .ok (.ok a, offset + (Bytes.runAt Byte.isDigit text offset).length)
  outOfRange : ∀ {n}, Denotes (Bytes.runAt Byte.isDigit text offset) n → ¬(lo ≤ n ∧ n ≤ hi) →
    q text offset = .ok (.error ⟨literal, offset, .outOfRange⟩, offset)

/-- `q` does so at every place between two characters. Inside a character it is stopped. -/
structure ReadsRange (q : Scan α) (literal : Literal) (lo hi : Nat) (value : α → Nat) : Prop where
  between : ∀ (s : String) offset, Bytes.isBoundary (Bytes.ofString s) offset = true →
    q.ReadsRangeAt literal lo hi value (Bytes.ofString s) offset
  inside : q.StopsInside

theorem ReadsRange.of_follows {p : Parser α} {q : Scan β} {raw : α → β} {literal : Literal}
    {lo hi : Nat} {value : α → Nat} {value' : β → Nat} (hp : p.ReadsRange literal lo hi value)
    (hq : q.Follows p raw) (hraw : ∀ a, value' (raw a) = value a) (hinside : q.StopsInside) :
    q.ReadsRange literal lo hi value' := by
  refine ⟨?_, hinside⟩
  intro s offset hoffset
  have hscan := hq.eq_ok_of_isBoundary hoffset
  obtain ⟨consumed, rest, hplace, hlength, hends⟩ :=
    Cursor.exists_place_eq Byte.isDigit (Bytes.le_length_of_isBoundary hoffset)
  rw [hplace] at hscan
  constructor
  · intro hnone
    rw [hscan, hnone, List.nil_append, hp.empty consumed hends, ← hlength]
    rfl
  · intro n hdigits hn
    obtain ⟨a, heval, ha⟩ := hp.inRange consumed hdigits hends hn
    refine ⟨raw a, (hraw a).trans ha, ?_⟩
    rw [hscan, heval, Cursor.position, List.length_append, hlength]
    rfl
  · intro n hdigits hn
    rw [hscan, hp.outOfRange consumed hdigits hends hn, ← hlength]
    rfl

end Scan

theorem Number.scan_readsRange (literal : Literal) (lo hi : UInt32) :
    (scan literal lo hi).ReadsRange literal lo.toNat hi.toNat UInt32.toNat :=
  .of_follows (unsigned_readsRange literal lo hi) (scan_follows literal lo hi) (fun _ => rfl)
    (scan_stopsInside literal lo hi)

theorem Number.scanPort_readsRange : scanPort.ReadsRange .port 0 65535 UInt16.toNat :=
  .of_follows port_readsRange scanPort_follows (fun _ => rfl)
    ((scan_stopsInside .port 0 maxPort).map UInt32.toUInt16)

theorem PrefixLength.scan_readsRange (f : Family) :
    (scan f).ReadsRange .prefixLength 0 f.bits id :=
  .of_follows (parser_readsRange f) scan_follows (fun _ => rfl)
    ((Number.scan_stopsInside .prefixLength 0 (UInt32.ofNat f.bits)).bind _)

/-! ## Numbers at every place -/

/-- Digits are accumulated by checked subtractions, multiplications and additions without a fault,
and the result is the number that they denote unless it is too great for 32 bits. Integers of any
range, ports and prefix lengths are read by that number alone, at every place of every text between
two characters, and no step of narrowing them wraps. Inside a character reading is stopped. -/
theorem integers_never_wrap :
    (∀ digits : Bytes, (∀ b ∈ digits, Byte.isDigit b = true) →
      Number.accumulate 0 digits = .ok (digits.foldlM Numeral.pushByte? 0) ∧
        digits.foldlM Numeral.pushByte? 0 = Numeral.fit32? (Numeral.ofDecimal digits)) ∧
    (∀ literal (lo hi : UInt32),
      (Number.scan literal lo hi).ReadsRange literal lo.toNat hi.toNat UInt32.toNat ∧
        (Number.scan literal lo hi).Follows (Number.unsigned literal lo hi) Subtype.val) ∧
    (Number.scanPort.ReadsRange .port 0 65535 UInt16.toNat ∧
      Number.scanPort.Follows Number.port id) ∧
    ∀ f, (PrefixLength.scanUnchecked f).ReadsRange .prefixLength 0 f.bits id ∧
      PrefixLength.scan f = PrefixLength.scanUnchecked f ∧
      (PrefixLength.scan f).Follows (PrefixLength.parser : Parser (PrefixLength f))
        PrefixLength.len := by
  refine ⟨?_, ?_, ⟨Number.scanPort_readsRange, Number.scanPort_follows⟩, ?_⟩
  · intro digits hdigits
    have haccumulate := Number.accumulate_eq hdigits 0
    rw [← Numeral.foldlM_pushByte? hdigits] at haccumulate
    exact ⟨haccumulate, Numeral.foldlM_pushByte?_zero hdigits⟩
  · intro literal lo hi
    exact ⟨Number.scan_readsRange literal lo hi, Number.scan_follows literal lo hi⟩
  · intro f
    rw [← PrefixLength.scan_eq_scanUnchecked]
    exact ⟨PrefixLength.scan_readsRange f, rfl, PrefixLength.scan_follows⟩

/-- The digits behind a character of two bytes, whose leading zero does not count. -/
theorem integers_never_wrap_behind_character :
    Bytes.isBoundary (Bytes.ofString "é080/tcp") 2 = true ∧
    Numeral.Denotes (Bytes.runAt Byte.isDigit (Bytes.ofString "é080/tcp") 2) 80 ∧
    (∃ port : UInt16, port.toNat = 80 ∧
      Number.scanPort (Bytes.ofString "é080/tcp") 2 = .ok (.ok port, 5)) ∧
    Bytes.isBoundary (Bytes.ofString "é080/tcp") 1 = false ∧
    Number.scanPort (Bytes.ofString "é080/tcp") 1 = .error .insideCharacter := by
  have hboundary : Bytes.isBoundary (Bytes.ofString "é080/tcp") 2 = true := rfl
  have hdigits : Numeral.Denotes (Bytes.runAt Byte.isDigit (Bytes.ofString "é080/tcp") 2) 80 :=
    ⟨List.cons_ne_nil _ _, List.all_eq_true.mp rfl, rfl⟩
  have hinside : Bytes.isBoundary (Bytes.ofString "é080/tcp") 1 = false := rfl
  have hport := integers_never_wrap.2.2.1.1
  exact ⟨hboundary, hdigits, (hport.between _ 2 hboundary).inRange hdigits (by decide), hinside,
    hport.inside _ 1 (by decide) hinside⟩

end NetLiteral
