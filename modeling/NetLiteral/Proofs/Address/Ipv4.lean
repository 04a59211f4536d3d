import NetLiteral.Address.Ipv4
import NetLiteral.Proofs.Address.Octets
import NetLiteral.Proofs.Bytes.Encoding
import NetLiteral.Proofs.Bytes.Join
import NetLiteral.Proofs.ByteClass
import NetLiteral.Proofs.Numeral

/-!
# IPv4 addresses and their only texts

A text spells an address by four numbers below 256, joined by dots and without leading zeros. The
reader accepts exactly these texts, and the text that is written for an address is the only one that
spells it.
-/

namespace NetLiteral.Ipv4

/-! ## Octets -/

/-- One to three digits of a number below 256. Only a zero by itself begins with a zero. -/
structure IsOctet (part : Bytes) : Prop where
  ne_nil : part ≠ []
  length_le : part.length ≤ 3
  isDigit : ∀ b ∈ part, Byte.isDigit b = true
  no_leading_zero : part.head? = some 0x30 → part = [0x30]
  value_lt : Numeral.ofDecimal part < 256

def octetValue (part : Bytes) : UInt8 :=
  UInt8.ofNat (Numeral.ofDecimal part)

variable {part text : Bytes}

theorem IsOctet.dot_not_mem (h : IsOctet part) : Byte.dot ∉ part := by
  intro hmem
  exact Bool.false_ne_true (h.isDigit Byte.dot hmem)

theorem IsOctet.toNat_octetValue (h : IsOctet part) :
    (octetValue part).toNat = Numeral.ofDecimal part :=
  UInt8.toNat_ofNat_of_lt' h.value_lt

/-- A part of two or more digits has no leading zero if it is an octet. -/
theorem no_leading_zero_iff (hne : part ≠ []) :
    (part.head? = some 0x30 → part = [0x30]) ↔
      ¬(1 < part.length ∧ part.head? = some 0x30) := by
  match part with
  | [] => exact absurd rfl hne
  | [b] => simp
  | b :: c :: bs => simp

theorem octet?_eq_some_iff {b : UInt8} :
    octet? part = some b ↔ IsOctet part ∧ octetValue part = b := by
  simp only [octet?, Option.ite_none_left_eq_some, Bool.or_eq_true, Bool.and_eq_true,
    List.isEmpty_iff, decide_eq_true_eq, beq_iff_eq, Bool.not_eq_true', not_or, Bool.not_eq_false,
    List.all_eq_true, Nat.not_lt, Option.some.injEq]
  constructor
  · rintro ⟨⟨⟨hne, hlength⟩, hdigit⟩, hzero, hvalue, hb⟩
    exact ⟨⟨hne, hlength, hdigit, (no_leading_zero_iff hne).mpr hzero, by omega⟩, hb⟩
  · rintro ⟨h, hb⟩
    exact ⟨⟨⟨h.ne_nil, h.length_le⟩, h.isDigit⟩, (no_leading_zero_iff h.ne_nil).mp h.no_leading_zero,
      Nat.le_of_lt_succ h.value_lt, hb⟩

theorem isOctet_decimal (b : UInt8) : IsOctet (Numeral.decimal b.toNat) := by
  have hb : b.toNat < 256 := b.toNat_lt
  refine ⟨Numeral.decimal_ne_nil, Numeral.length_numeral_le (by decide) (by decide) (by omega),
    fun _ => Numeral.isDigit_of_mem_decimal _, ?_, by rwa [Numeral.ofDecimal_decimal]⟩
  intro hhead
  by_cases hzero : b.toNat = 0
  · rw [hzero]
    rfl
  · exact absurd hhead (Numeral.head?_decimal_ne_zero hzero)

theorem octetValue_decimal (b : UInt8) : octetValue (Numeral.decimal b.toNat) = b := by
  rw [octetValue, Numeral.ofDecimal_decimal, UInt8.ofNat_toNat]

/-- An octet is spelled by the numeral of its value alone. -/
theorem IsOctet.decimal_octetValue (h : IsOctet part) :
    Numeral.decimal (octetValue part).toNat = part := by
  rw [h.toNat_octetValue]
  exact Numeral.numeral_ofDigits (by decide) h.ne_nil
    (fun b hb => Numeral.exists_digit_of_isDigit (h.isDigit b hb)) h.no_leading_zero

/-! ## Addresses -/

/-- The texts of IPv4 addresses with the octets they stand for. -/
def Spells (text os : Bytes) : Prop :=
  ∃ ps : List Bytes, ps.length = 4 ∧ (∀ p ∈ ps, IsOctet p) ∧ text = Bytes.join Byte.dot ps ∧
    os = ps.map octetValue

variable {a : Address .ipv4}

theorem read?_eq_some_iff_mapM :
    read? text = some a ↔ (text.splitOn Byte.dot).mapM octet? = some a.octets := by
  rw [read?]
  constructor
  · intro h
    split at h
    next x y z w hparts =>
      cases h
      exact hparts
    next => cases h
  · intro hparts
    obtain ⟨os, hos⟩ := a
    match os, hos with
    | [x, y, z, w], hos => rw [hparts]

theorem read?_eq_some_iff_spells : read? text = some a ↔ Spells text a.octets :=
  read?_eq_some_iff_mapM.trans (Bytes.mapM_splitOn_eq_some_iff_of_length
    (fun _ _ => octet?_eq_some_iff) (fun _ => IsOctet.dot_not_mem) (by decide) a.length_octets)

/-- The text that is written for an address is the only one that spells it. -/
theorem spells_iff_eq_write : Spells text a.octets ↔ text = write a := by
  constructor
  · rintro ⟨ps, _, hps, rfl, hos⟩
    have hparts : (ps.map octetValue).map (fun b => Numeral.decimal b.toNat) = ps := by
      rw [List.map_map]
      exact List.map_congr_left (fun p hp => (hps p hp).decimal_octetValue) |>.trans (List.map_id ps)
    rw [write, hos, hparts]
  · rintro rfl
    refine ⟨a.octets.map fun b => Numeral.decimal b.toNat, ?_, ?_, rfl, ?_⟩
    · rw [List.length_map]
      exact a.length_octets
    · intro p hp
      obtain ⟨b, _, rfl⟩ := List.mem_map.mp hp
      exact isOctet_decimal b
    · rw [List.map_map]
      exact (List.map_id'' octetValue_decimal a.octets).symm

theorem read?_eq_some_iff : read? text = some a ↔ text = write a :=
  read?_eq_some_iff_spells.trans spells_iff_eq_write

theorem read?_write (a : Address .ipv4) : read? (write a) = some a :=
  read?_eq_some_iff.mpr rfl

theorem isIpv4_of_read? (h : read? text = some a) : ∀ b ∈ text, Byte.isIpv4 b = true := by
  obtain ⟨ps, _, hps, rfl, _⟩ := read?_eq_some_iff_spells.mp h
  apply Bytes.forall_mem_join (P := fun b => Byte.isIpv4 b = true) rfl
  intro p hp b hb
  simp [Byte.isIpv4, (hps p hp).isDigit b hb]

theorem dot_mem_of_read? (h : read? text = some a) : Byte.dot ∈ text := by
  obtain ⟨ps, hlength, _, rfl, _⟩ := read?_eq_some_iff_spells.mp h
  exact Bytes.mem_join (by omega)

/-! ## Reading step by step -/

/-- Checks the form of a part and then reads it as any number below 256 may be written. -/
def octetInSteps? (part : Bytes) : Option UInt8 :=
  if part.isEmpty || 3 < part.length || !part.all Byte.isDigit then none
  else if 1 < part.length && part.head? == some 0x30 then none
  else (Numeral.below? UInt8.size part).map UInt8.ofNat

/-- Reads four parts, each before the next one is looked at. -/
def readInSteps? (text : Bytes) : Option Bytes :=
  Bytes.readParts? octetInSteps? 4 (text.splitOn Byte.dot)

/-- The checks leave no sign and no leading zero for the number to begin with. -/
theorem octetInSteps?_eq : octetInSteps? = octet? := by
  funext part
  rw [octetInSteps?, octet?]
  split
  next => rfl
  next hform =>
    simp only [Bool.or_eq_true, List.isEmpty_iff, Bool.not_eq_true', not_or, Bool.not_eq_false,
      List.all_eq_true] at hform
    have hsize : UInt8.size = 256 := rfl
    rw [Numeral.below?_of_isDigit hform.1.1 hform.2, hsize]
    by_cases hvalue : Numeral.ofDecimal part < 256
    · simp [hvalue, Nat.not_lt.mpr (Nat.le_of_lt_succ hvalue)]
    · simp [hvalue, Nat.lt_of_not_le fun h => hvalue (Nat.lt_succ_of_le h)]

theorem readInSteps?_eq : readInSteps? text = (read? text).map Address.octets := by
  rw [readInSteps?, octetInSteps?_eq]
  exact Address.readParts?_eq_map_octets fun _ => read?_eq_some_iff_mapM

/-- The reader accepts one text for each address, the text that is written for it. Whatever else a
number may look like, four octets have one form only, and reading them step by step finds no
other. -/
theorem read_only_as_written (s : String) :
    (∀ a, read? (Bytes.ofString s) = some a ↔ s = Bytes.toText (write a)) ∧
    (∀ a : Address .ipv4, Spells (Bytes.ofString s) a.octets ↔ s = Bytes.toText (write a)) ∧
    readInSteps? (Bytes.ofString s) = (read? (Bytes.ofString s)).map Address.octets := by
  have htext (a : Address .ipv4) : s = Bytes.toText (write a) ↔ Bytes.ofString s = write a := by
    apply Bytes.eq_toText_iff
    intro b hb
    exact Byte.isAscii_of_isMember (f := .ipv4) (isIpv4_of_read? (read?_write a) b hb)
  refine ⟨?_, ?_, readInSteps?_eq⟩
  · intro a
    rw [htext, read?_eq_some_iff]
  · intro a
    rw [htext, spells_iff_eq_write]

end NetLiteral.Ipv4
