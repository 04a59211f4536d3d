import NetLiteral.Bytes

/-!
# Bytes of texts

A text is encoded character by character, and an ASCII byte always is a character of its own. Texts
can therefore be cut at any ASCII byte of their encoding, and ASCII bytes are the encoding of the
text that they spell.
-/

namespace NetLiteral.Bytes

theorem ofString_eq_flatMap (s : String) :
    ofString s = s.toList.flatMap String.utf8EncodeChar := by
  rw [ofString, String.toUTF8_eq_toByteArray, ← String.utf8Encode_toList, List.utf8Encode,
    List.data_toByteArray]

theorem ofString_ofList (cs : List Char) :
    ofString (String.ofList cs) = cs.flatMap String.utf8EncodeChar := by
  rw [ofString_eq_flatMap, String.toList_ofList]

theorem ofString_append (s t : String) : ofString (s ++ t) = ofString s ++ ofString t := by
  simp only [ofString_eq_flatMap, String.toList_append, List.flatMap_append]

theorem ofString_injective {s t : String} (h : ofString s = ofString t) : s = t := by
  apply String.toByteArray_inj.mp
  exact ByteArray.ext (Array.toList_inj.mp h)

/-! ## Characters -/

/-- Whether a byte goes on with a character that an earlier byte began. -/
def isContinuation (b : UInt8) : Bool :=
  0x80 ≤ b && b < 0xC0

theorem isAscii_iff {b : UInt8} : isAscii b = true ↔ b.toNat < 128 := by
  rw [isAscii, decide_eq_true_eq, UInt8.lt_iff_toNat_lt]
  rfl

theorem isContinuation_iff {b : UInt8} :
    isContinuation b = true ↔ 128 ≤ b.toNat ∧ b.toNat < 192 := by
  rw [isContinuation, Bool.and_eq_true, decide_eq_true_eq, decide_eq_true_eq,
    UInt8.le_iff_toNat_le, UInt8.lt_iff_toNat_lt]
  rfl

theorem isContinuation_ofNat (n : Nat) : isContinuation (UInt8.ofNat (n % 0x40 + 0x80)) = true := by
  rw [isContinuation_iff, UInt8.toNat_ofNat']
  omega

/-- A character is encoded by one ASCII byte, or by a leading byte and bytes that continue it. -/
theorem utf8EncodeChar_cases (c : Char) :
    (∃ b, String.utf8EncodeChar c = [b] ∧ isAscii b = true) ∨
      (∃ b bs, String.utf8EncodeChar c = b :: bs ∧ 192 ≤ b.toNat ∧ bs ≠ [] ∧
        ∀ x ∈ bs, isContinuation x = true) := by
  fun_cases String.utf8EncodeChar c with
  | case1 v h =>
    refine .inl ⟨_, rfl, ?_⟩
    rw [isAscii_iff, UInt8.toNat_ofNat']
    omega
  | _ =>
    refine .inr ⟨_, _, rfl, ?_, List.cons_ne_nil _ _, ?_⟩
    · rw [UInt8.toNat_ofNat']
      omega
    · simp only [List.forall_mem_cons, isContinuation_ofNat, List.not_mem_nil, false_implies,
        implies_true, and_self]

theorem utf8EncodeChar_ofUInt8 {b : UInt8} (h : isAscii b = true) :
    String.utf8EncodeChar (Char.ofUInt8 b) = [b] := by
  have hb : b.toNat < 128 := isAscii_iff.mp h
  have hval : (Char.ofUInt8 b).val.toNat = b.toNat := rfl
  simp only [String.utf8EncodeChar, hval]
  rw [if_pos (by omega), UInt8.ofNat_toNat]

theorem utf8EncodeChar_eq_singleton_of_mem {c : Char} {b : UInt8} (hb : isAscii b = true)
    (h : b ∈ String.utf8EncodeChar c) : String.utf8EncodeChar c = [b] := by
  have hlt : b.toNat < 128 := isAscii_iff.mp hb
  rcases utf8EncodeChar_cases c with ⟨x, hx, _⟩ | ⟨x, xs, hx, hlead, _, hcont⟩
  · rw [hx, List.mem_singleton] at h
    rw [hx, h]
  · rw [hx] at h
    rcases List.mem_cons.mp h with rfl | htail
    · omega
    · have hge := (isContinuation_iff.mp (hcont b htail)).1
      omega

/-! ## ASCII texts -/

theorem flatMap_utf8EncodeChar_map {bs : Bytes} (h : ∀ b ∈ bs, isAscii b = true) :
    (bs.map Char.ofUInt8).flatMap String.utf8EncodeChar = bs := by
  induction bs with
  | nil => rfl
  | cons b bs ih =>
    obtain ⟨hb, hbs⟩ := List.forall_mem_cons.mp h
    rw [List.map_cons, List.flatMap_cons, utf8EncodeChar_ofUInt8 hb, ih hbs]
    rfl

theorem ofString_toText {bs : Bytes} (h : ∀ b ∈ bs, isAscii b = true) :
    ofString (toText bs) = bs := by
  rw [toText, ofString_ofList, flatMap_utf8EncodeChar_map h]

theorem eq_toText_iff {s : String} {bs : Bytes} (h : ∀ b ∈ bs, isAscii b = true) :
    s = toText bs ↔ ofString s = bs := by
  constructor
  · rintro rfl
    exact ofString_toText h
  · intro hs
    exact ofString_injective (hs.trans (ofString_toText h).symm)

/-! ## Cuts -/

/-- The first byte of a text begins a character. -/
theorem not_isContinuation_of_head? {s : String} {b : UInt8} (h : (ofString s).head? = some b) :
    isContinuation b = false := by
  rw [ofString_eq_flatMap] at h
  cases hs : s.toList with
  | nil => rw [hs] at h; cases h
  | cons c cs =>
    rw [hs, List.flatMap_cons] at h
    rw [Bool.eq_false_iff, ne_eq, isContinuation_iff]
    rcases utf8EncodeChar_cases c with ⟨x, hx, hascii⟩ | ⟨x, xs, hx, hlead, _⟩
    · have hlt := isAscii_iff.mp hascii
      simp only [hx, List.cons_append, List.head?_cons, Option.some.injEq] at h
      subst h
      omega
    · simp only [hx, List.cons_append, List.head?_cons, Option.some.injEq] at h
      subst h
      omega

/-- The first byte of a longer character is followed by a byte that goes on with it. -/
theorem isContinuation_of_not_isAscii {s : String} {b : UInt8} {rest : Bytes}
    (h : ofString s = b :: rest) (hb : isAscii b = false) :
    ∃ x xs, rest = x :: xs ∧ isContinuation x = true := by
  rw [ofString_eq_flatMap] at h
  cases hs : s.toList with
  | nil => rw [hs] at h; cases h
  | cons c cs =>
    rw [hs, List.flatMap_cons] at h
    rcases utf8EncodeChar_cases c with ⟨x, hx, hascii⟩ | ⟨x, xs, hx, _, hne, hcont⟩
    · rw [hx] at h
      cases h
      rw [hb] at hascii
      cases hascii
    · rw [hx] at h
      obtain ⟨y, ys, rfl⟩ := List.exists_cons_of_ne_nil hne
      cases h
      exact ⟨y, _, rfl, hcont y List.mem_cons_self⟩

/-- A list of characters can be cut wherever its encoding is not inside one of them. -/
theorem exists_cut_flatMap (cs : List Char) :
    ∀ xs ys : Bytes, cs.flatMap String.utf8EncodeChar = xs ++ ys →
      (∀ b, ys.head? = some b → isContinuation b = false) →
        ∃ before after : List Char, xs = before.flatMap String.utf8EncodeChar ∧
          ys = after.flatMap String.utf8EncodeChar := by
  induction cs with
  | nil =>
    intro xs ys h _
    obtain ⟨rfl, rfl⟩ := List.append_eq_nil_iff.mp h.symm
    exact ⟨[], [], rfl, rfl⟩
  | cons c cs ih =>
    intro xs ys h hys
    rw [List.flatMap_cons, List.append_eq_append_iff] at h
    rcases h with ⟨xs', rfl, h⟩ | ⟨rest, hc, rfl⟩
    · obtain ⟨before, after, rfl, rfl⟩ := ih xs' ys h hys
      exact ⟨c :: before, after, by rw [List.flatMap_cons], rfl⟩
    · cases rest with
      | nil => exact ⟨[c], cs, by simpa using hc.symm, rfl⟩
      | cons y rest =>
        cases xs with
        | nil => exact ⟨[], c :: cs, rfl, by rw [List.flatMap_cons, hc, List.nil_append]⟩
        | cons x xs =>
          -- The cut would be inside `c`.
          have hy : isContinuation y = false := hys y rfl
          rcases utf8EncodeChar_cases c with ⟨b, hb, _⟩ | ⟨b, bs, hb, _, _, hcont⟩
          · rw [hb] at hc
            cases xs <;> cases hc
          · rw [hb] at hc
            cases hc
            rw [hcont y (List.mem_append_right xs List.mem_cons_self)] at hy
            cases hy

/-- A text can be cut wherever its encoding is not inside a character. -/
theorem exists_cut_ofString {s : String} {xs ys : Bytes} (h : ofString s = xs ++ ys)
    (hys : ∀ b, ys.head? = some b → isContinuation b = false) :
    ∃ before after : String, xs = ofString before ∧ ys = ofString after := by
  rw [ofString_eq_flatMap] at h
  obtain ⟨before, after, hbefore, hafter⟩ := exists_cut_flatMap s.toList xs ys h hys
  exact ⟨String.ofList before, String.ofList after, by rw [ofString_ofList, hbefore],
    by rw [ofString_ofList, hafter]⟩

theorem isContinuation_of_isAscii {b : UInt8} (hb : isAscii b = true) :
    isContinuation b = false := by
  have hlt := isAscii_iff.mp hb
  rw [Bool.eq_false_iff, ne_eq, isContinuation_iff]
  omega

/-- After an ASCII byte of a text stands a text. -/
theorem exists_tail_ofString {s : String} {b : UInt8} {ys : Bytes} (hb : isAscii b = true)
    (h : ofString s = b :: ys) : ∃ after : String, ys = ofString after := by
  rw [ofString_eq_flatMap] at h
  cases hs : s.toList with
  | nil => rw [hs] at h; cases h
  | cons c cs =>
    rw [hs, List.flatMap_cons] at h
    have hmem : b ∈ String.utf8EncodeChar c := by
      rcases utf8EncodeChar_cases c with ⟨x, hx, _⟩ | ⟨x, xs, hx, _⟩ <;> rw [hx] at h ⊢ <;>
        cases h <;> exact List.mem_cons_self
    rw [utf8EncodeChar_eq_singleton_of_mem hb hmem] at h
    exact ⟨String.ofList cs, by rw [ofString_ofList]; exact (List.cons.inj h).2.symm⟩

/-- A text can be cut before and after each ASCII byte of its encoding. -/
theorem exists_split_ofString {s : String} {b : UInt8} {xs ys : Bytes} (hb : isAscii b = true)
    (h : ofString s = xs ++ b :: ys) :
    ∃ before after : String, xs = ofString before ∧ ys = ofString after := by
  have hhead : ∀ x, (b :: ys).head? = some x → isContinuation x = false := by
    rintro x hx
    cases hx
    exact isContinuation_of_isAscii hb
  obtain ⟨before, rest, hbefore, hrest⟩ := exists_cut_ofString h hhead
  obtain ⟨after, hafter⟩ := exists_tail_ofString hb hrest.symm
  exact ⟨before, after, hbefore, hafter⟩

end NetLiteral.Bytes
