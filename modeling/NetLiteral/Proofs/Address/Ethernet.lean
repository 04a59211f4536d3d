import NetLiteral.Address.Ethernet
import NetLiteral.Proofs.Address.Octets
import NetLiteral.Proofs.Bytes.Encoding
import NetLiteral.Proofs.Bytes.Join
import NetLiteral.Proofs.ByteClass
import NetLiteral.Proofs.Numeral

/-!
# Ethernet addresses and their two separators

A text spells an address by six pairs of hexadecimal digits, joined by one separator throughout. The
reader accepts exactly these texts. What is written for the address is the text with its letters in
lowercase and its dashes turned into colons.
-/

namespace NetLiteral.Ethernet

/-! ## Octets -/

structure IsPair (part : Bytes) : Prop where
  length_eq : part.length = 2
  isHexDigit : ∀ b ∈ part, Byte.isHexDigit b = true

def pairValue (part : Bytes) : UInt8 :=
  UInt8.ofNat (Numeral.ofHex part)

variable {sep : UInt8} {part text os : Bytes}

theorem octet?_eq_some_iff {b : UInt8} :
    octet? part = some b ↔ IsPair part ∧ pairValue part = b := by
  simp only [octet?, Option.ite_none_right_eq_some, List.all_eq_true, Option.some.injEq]
  constructor
  · rintro ⟨⟨hlength, hdigit⟩, hb⟩
    exact ⟨⟨hlength, hdigit⟩, hb⟩
  · rintro ⟨h, hb⟩
    exact ⟨⟨h.length_eq, h.isHexDigit⟩, hb⟩

theorem IsPair.not_mem (hsep : Byte.isHexDigit sep = false) (h : IsPair part) : sep ∉ part := by
  intro hmem
  rw [h.isHexDigit sep hmem] at hsep
  cases hsep

theorem IsPair.toNat_pairValue (h : IsPair part) :
    (pairValue part).toNat = Numeral.ofHex part := by
  have hlt := Numeral.ofHex_lt h.isHexDigit
  rw [h.length_eq] at hlt
  exact UInt8.toNat_ofNat_of_lt' hlt

theorem hexPair_eq (b : UInt8) :
    Numeral.hexPair b = [Numeral.digit (b.toNat / 16), Numeral.digit (b.toNat % 16)] := by
  have hb : b.toNat < 256 := b.toNat_lt
  rw [Numeral.hexPair, Numeral.hex_eq_numeral, Numeral.hex_eq_numeral,
    Numeral.numeral_of_lt (by omega), Numeral.numeral_of_lt (by omega)]
  rfl

theorem isPair_hexPair (b : UInt8) : IsPair (Numeral.hexPair b) := by
  have hb : b.toNat < 256 := b.toNat_lt
  rw [hexPair_eq]
  refine ⟨rfl, ?_⟩
  simp only [List.forall_mem_cons, List.not_mem_nil, false_implies, implies_true, and_true]
  exact ⟨Numeral.isHexDigit_digit (by omega), Numeral.isHexDigit_digit (by omega)⟩

theorem ofHex_pair (x y : UInt8) :
    Numeral.ofHex [x, y] = 16 * Numeral.digitValue x + Numeral.digitValue y := by
  simp [Numeral.ofHex, Numeral.ofDigits]

theorem pairValue_hexPair (b : UInt8) : pairValue (Numeral.hexPair b) = b := by
  have hb : b.toNat < 256 := b.toNat_lt
  rw [pairValue, hexPair_eq, ofHex_pair, Numeral.digitValue_digit (by omega),
    Numeral.digitValue_digit (by omega), Nat.div_add_mod, UInt8.ofNat_toNat]

/-- The pair written for an octet is any pair of that value, in lowercase. -/
theorem IsPair.hexPair_pairValue (h : IsPair part) :
    Numeral.hexPair (pairValue part) = part.map Numeral.lowercase := by
  match part, h with
  | [x, y], h =>
    have hx := h.isHexDigit x (by simp)
    have hy := h.isHexDigit y (by simp)
    have hlt := Numeral.digitValue_lt_of_isHexDigit hy
    rw [hexPair_eq, h.toNat_pairValue, ofHex_pair, Nat.mul_add_div (by decide),
      Nat.div_eq_of_lt hlt, Nat.add_zero, Nat.mul_add_mod, Nat.mod_eq_of_lt hlt,
      Numeral.digit_digitValue hx, Numeral.digit_digitValue hy]
    rfl

/-! ## Addresses -/

/-- Six pairs of digits with the same separator between any two of them. -/
def IsJoined (sep : UInt8) (text : Bytes) : Prop :=
  ∃ ps : List Bytes, ps.length = 6 ∧ (∀ p ∈ ps, IsPair p) ∧ text = Bytes.join sep ps

/-- The joined texts with the octets they stand for. -/
def Spells (sep : UInt8) (text os : Bytes) : Prop :=
  ∃ ps : List Bytes, ps.length = 6 ∧ (∀ p ∈ ps, IsPair p) ∧ text = Bytes.join sep ps ∧
    os = ps.map pairValue

theorem Spells.isJoined (h : Spells sep text os) : IsJoined sep text := by
  obtain ⟨ps, hlength, hps, htext, _⟩ := h
  exact ⟨ps, hlength, hps, htext⟩

theorem IsJoined.exists_spells (h : IsJoined sep text) :
    ∃ a : Address .ethernet, Spells sep text a.octets := by
  obtain ⟨ps, hlength, hps, htext⟩ := h
  exact ⟨⟨ps.map pairValue, by rw [List.length_map, hlength]; rfl⟩, ps, hlength, hps, htext, rfl⟩

variable {a : Address .ethernet}

theorem readJoined?_eq_some_iff_mapM :
    readJoined? sep text = some a ↔ (text.splitOn sep).mapM octet? = some a.octets := by
  rw [readJoined?]
  constructor
  · intro h
    split at h
    next u v w x y z hparts =>
      cases h
      exact hparts
    next => cases h
  · intro hparts
    obtain ⟨os, hos⟩ := a
    match os, hos with
    | [u, v, w, x, y, z], hos => rw [hparts]

theorem readJoined?_eq_some_iff (hsep : Byte.isHexDigit sep = false) :
    readJoined? sep text = some a ↔ Spells sep text a.octets :=
  readJoined?_eq_some_iff_mapM.trans (Bytes.mapM_splitOn_eq_some_iff_of_length
    (fun _ _ => octet?_eq_some_iff) (fun _ => IsPair.not_mem hsep) (by decide) a.length_octets)

/-- The byte after the first pair is the separator. -/
theorem Spells.getElem?_two (h : Spells sep text os) : text[2]? = some sep := by
  obtain ⟨ps, hlength, hps, rfl, _⟩ := h
  match ps, hlength with
  | p :: q :: ps, _ =>
    have hp := (hps p List.mem_cons_self).length_eq
    rw [Bytes.join_cons_cons, List.getElem?_append_right (by omega), hp]
    rfl

theorem read?_eq_some_iff :
    read? text = some a ↔ Spells Byte.colon text a.octets ∨ Spells Byte.dash text a.octets := by
  rw [read?]
  constructor
  · intro h
    split at h
    next sep _ =>
      rw [Option.ite_none_right_eq_some] at h
      obtain ⟨hsep, hread⟩ := h
      rcases hsep with rfl | rfl
      · exact .inl ((readJoined?_eq_some_iff rfl).mp hread)
      · exact .inr ((readJoined?_eq_some_iff rfl).mp hread)
    next => cases h
  · rintro (h | h)
    · simp only [h.getElem?_two, true_or, if_true]
      exact (readJoined?_eq_some_iff rfl).mpr h
    · simp only [h.getElem?_two, or_true, if_true]
      exact (readJoined?_eq_some_iff rfl).mpr h

theorem isSome_read?_iff :
    (read? text).isSome = true ↔ IsJoined Byte.colon text ∨ IsJoined Byte.dash text := by
  rw [Option.isSome_iff_exists]
  constructor
  · rintro ⟨a, h⟩
    exact (read?_eq_some_iff.mp h).imp Spells.isJoined Spells.isJoined
  · rintro (h | h)
    · obtain ⟨a, ha⟩ := h.exists_spells
      exact ⟨a, read?_eq_some_iff.mpr (.inl ha)⟩
    · obtain ⟨a, ha⟩ := h.exists_spells
      exact ⟨a, read?_eq_some_iff.mpr (.inr ha)⟩

theorem spells_write (a : Address .ethernet) : Spells Byte.colon (write a) a.octets := by
  refine ⟨a.octets.map Numeral.hexPair, ?_, ?_, rfl, ?_⟩
  · rw [List.length_map]
    exact a.length_octets
  · intro p hp
    obtain ⟨b, _, rfl⟩ := List.mem_map.mp hp
    exact isPair_hexPair b
  · rw [List.map_map]
    exact (List.map_id'' pairValue_hexPair a.octets).symm

theorem read?_write (a : Address .ethernet) : read? (write a) = some a :=
  read?_eq_some_iff.mpr (.inl (spells_write a))

theorem Spells.isEthernet (hsep : Byte.isEthernet sep = true) (h : Spells sep text os) :
    ∀ b ∈ text, Byte.isEthernet b = true := by
  obtain ⟨ps, _, hps, rfl, _⟩ := h
  apply Bytes.forall_mem_join (P := fun b => Byte.isEthernet b = true) hsep
  intro p hp b hb
  simp [Byte.isEthernet, (hps p hp).isHexDigit b hb]

theorem isEthernet_of_read? (h : read? text = some a) : ∀ b ∈ text, Byte.isEthernet b = true :=
  (read?_eq_some_iff.mp h).elim (Spells.isEthernet rfl) (Spells.isEthernet rfl)

/-! ## The canonical spelling -/

def normalizeByte (b : UInt8) : UInt8 :=
  if b = Byte.dash then Byte.colon else Numeral.lowercase b

/-- A letter in lowercase, and a colon for a dash. -/
def normalize (c : Char) : Char :=
  if c = '-' then ':' else c.toLower

theorem ofUInt8_normalizeByte (b : UInt8) :
    Char.ofUInt8 (normalizeByte b) = normalize (Char.ofUInt8 b) := by
  have hall : ∀ b : Fin 256, Char.ofUInt8 (normalizeByte (.ofFin b)) =
      normalize (Char.ofUInt8 (.ofFin b)) := by decide +kernel
  exact hall b.toFin

theorem map_normalize_toText (bs : Bytes) :
    (Bytes.toText bs).map normalize = Bytes.toText (bs.map normalizeByte) := by
  apply String.toList_injective
  simp only [Bytes.toText, String.toList_map, String.toList_ofList, List.map_map]
  exact List.map_congr_left fun b _ => (ofUInt8_normalizeByte b).symm

theorem map_normalizeByte_of_isPair (h : IsPair part) :
    part.map normalizeByte = part.map Numeral.lowercase := by
  apply List.map_congr_left
  intro b hb
  have hdash : b ≠ Byte.dash := by
    rintro rfl
    exact h.not_mem rfl hb
  rw [normalizeByte, if_neg hdash]

/-- Whichever separator a text has, its normal form is what is written for the address. -/
theorem Spells.write_eq (hsep : normalizeByte sep = Byte.colon) (h : Spells sep text a.octets) :
    write a = text.map normalizeByte := by
  obtain ⟨ps, _, hps, rfl, hos⟩ := h
  have hparts : (ps.map pairValue).map Numeral.hexPair = ps.map (List.map normalizeByte) := by
    rw [List.map_map]
    apply List.map_congr_left
    intro p hp
    exact (hps p hp).hexPair_pairValue.trans (map_normalizeByte_of_isPair (hps p hp)).symm
  rw [write, hos, hparts, Bytes.map_join, hsep]

theorem write_eq_of_read? (h : read? text = some a) : write a = text.map normalizeByte :=
  (read?_eq_some_iff.mp h).elim (Spells.write_eq rfl) (Spells.write_eq rfl)

/-! ## Reading step by step -/

/-- Takes the separator from the text and then reads six parts, each before the next one is looked
at. -/
def readInSteps? (text : Bytes) : Option Bytes :=
  match text[2]? with
  | some sep =>
    if sep = Byte.colon ∨ sep = Byte.dash then Bytes.readParts? octet? 6 (text.splitOn sep)
    else none
  | none => none

theorem readInSteps?_eq : readInSteps? text = (read? text).map Address.octets := by
  rw [readInSteps?, read?]
  cases text[2]? with
  | none => rfl
  | some sep =>
    have hparts : Bytes.readParts? octet? 6 (text.splitOn sep) =
        (readJoined? sep text).map Address.octets :=
      Address.readParts?_eq_map_octets fun _ => readJoined?_eq_some_iff_mapM
    simp only [hparts, apply_ite (Option.map Address.octets), Option.map_none]

/-- The reader accepts six pairs of hexadecimal digits that are joined by colons or by dashes, and
no other text. The address is then written as the normal form of the text, and this form is another
spelling of the same address. -/
theorem two_spellings_normalized (s : String) :
    ((read? (Bytes.ofString s)).isSome = true ↔
      IsJoined Byte.colon (Bytes.ofString s) ∨ IsJoined Byte.dash (Bytes.ofString s)) ∧
    (∀ a, read? (Bytes.ofString s) = some a →
      Bytes.toText (write a) = s.map normalize ∧
      read? (Bytes.ofString (s.map normalize)) = some a) ∧
    readInSteps? (Bytes.ofString s) = (read? (Bytes.ofString s)).map Address.octets := by
  refine ⟨isSome_read?_iff, ?_, readInSteps?_eq⟩
  intro a h
  have hascii (text : Bytes) (hread : read? text = some a) : ∀ b ∈ text, Bytes.isAscii b = true := by
    intro b hb
    exact Byte.isAscii_of_isMember (f := .ethernet) (isEthernet_of_read? hread b hb)
  have hs : s = Bytes.toText (Bytes.ofString s) := (Bytes.eq_toText_iff (hascii _ h)).mpr rfl
  have hwrite : Bytes.toText (write a) = s.map normalize := by
    rw [write_eq_of_read? h, ← map_normalize_toText, ← hs]
  refine ⟨hwrite, ?_⟩
  rw [← hwrite, Bytes.ofString_toText (hascii _ (read?_write a)), read?_write]

end NetLiteral.Ethernet
