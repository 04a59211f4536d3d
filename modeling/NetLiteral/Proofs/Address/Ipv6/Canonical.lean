import Mathlib.Data.List.Forall2
import NetLiteral.Proofs.Address.Ipv6.Grammar
import NetLiteral.Proofs.Address.Ipv6.ZeroRun

/-!
# The canonical text of an IPv6 address

The text that an address is written as spells its octets, whether or not a run of zero groups is
left out. It is the one text in which every group is the shortest lowercase numeral and a double
colon stands for the first of the longest runs of at least two zero groups.
-/

namespace NetLiteral.Ipv6

/-! ## Runs of zeros -/

theorem takeWhile_zero_eq_replicate (gs : List UInt16) :
    gs.takeWhile (· == 0) = List.replicate (gs.takeWhile (· == 0)).length 0 := by
  rw [List.eq_replicate_iff]
  refine ⟨rfl, ?_⟩
  intro g hg
  simpa using List.all_eq_true.mp List.all_takeWhile g hg

/-- The groups are those before the longest run of zeros, the run, and those after it. -/
theorem longestZeroRun_split {gs : List UInt16} {start length : Nat}
    (h : longestZeroRun gs = (start, length)) :
    gs.take start ++ List.replicate length 0 ++ gs.drop (start + length) = gs := by
  induction gs generalizing start length with
  | nil =>
    cases h
    rfl
  | cons g gs ih =>
    cases hrun : longestZeroRun gs with
    | mk start' length' =>
      rw [longestZeroRun, hrun] at h
      dsimp only at h
      split at h
      next =>
        cases h
        rw [List.take_zero, List.nil_append, Nat.zero_add, ← takeWhile_zero_eq_replicate]
        exact List.prefix_iff_eq_append.mp (List.takeWhile_prefix _)
      next =>
        cases h
        have hdrop : start' + 1 + length = start' + length + 1 := by omega
        rw [List.take_succ_cons, hdrop, List.drop_succ_cons, List.cons_append, List.cons_append,
          ih hrun]

/-! ## Groups -/

theorem isGroup_hex (g : UInt16) : IsGroup (Numeral.hex g.toNat) := by
  have hg : g.toNat < 16 ^ 4 := g.toNat_lt
  exact ⟨Numeral.numeral_ne_nil, Numeral.length_numeral_le (by decide) (by decide) hg,
    Numeral.isHexDigit_of_mem_hex⟩

theorem groupValue_hex (g : UInt16) : groupValue (Numeral.hex g.toNat) = g := by
  rw [groupValue, Numeral.ofHex_hex, UInt16.ofNat_toNat]

theorem isGroup_of_mem_map_hex (gs : List UInt16) :
    ∀ p ∈ gs.map fun g => Numeral.hex g.toNat, IsGroup p := by
  intro p hp
  obtain ⟨g, _, rfl⟩ := List.mem_map.mp hp
  exact isGroup_hex g

theorem flatMap_groupOctets_hex (gs : List UInt16) :
    (gs.map fun g => Numeral.hex g.toNat).flatMap groupOctets = octets gs := by
  rw [← octets_map_groupValue (isGroup_of_mem_map_hex gs), List.map_map]
  congr 1
  exact List.map_id'' groupValue_hex gs

/-- The shortest lowercase numeral of a group. -/
structure IsShortest (g : UInt16) (part : Bytes) : Prop where
  ne_nil : part ≠ []
  isLowercase : ∀ b ∈ part, (0x30 ≤ b ∧ b ≤ 0x39) ∨ (0x61 ≤ b ∧ b ≤ 0x66)
  no_leading_zero : part.head? = some 0x30 → part = [0x30]
  value_eq : Numeral.ofHex part = g.toNat

theorem isLowercase_digit {d : Nat} (h : d < 16) :
    (0x30 ≤ Numeral.digit d ∧ Numeral.digit d ≤ 0x39) ∨
      (0x61 ≤ Numeral.digit d ∧ Numeral.digit d ≤ 0x66) := by
  have hall : ∀ d : Fin 16, (0x30 ≤ Numeral.digit d.val ∧ Numeral.digit d.val ≤ 0x39) ∨
      (0x61 ≤ Numeral.digit d.val ∧ Numeral.digit d.val ≤ 0x66) := by decide
  exact hall ⟨d, h⟩

theorem exists_digit_of_isLowercase {b : UInt8}
    (h : (0x30 ≤ b ∧ b ≤ 0x39) ∨ (0x61 ≤ b ∧ b ≤ 0x66)) :
    ∃ d, d < 16 ∧ Numeral.digit d = b ∧ Numeral.digitValue b = d := by
  have hall : ∀ b : Fin 256,
      (0x30 ≤ UInt8.ofFin b ∧ UInt8.ofFin b ≤ 0x39) ∨
        (0x61 ≤ UInt8.ofFin b ∧ UInt8.ofFin b ≤ 0x66) →
      Numeral.digitValue (.ofFin b) < 16 ∧
        Numeral.digit (Numeral.digitValue (.ofFin b)) = .ofFin b := by decide +kernel
  obtain ⟨hlt, hdigit⟩ := hall b.toFin h
  exact ⟨Numeral.digitValue b, hlt, hdigit, rfl⟩

theorem isShortest_iff {g : UInt16} {part : Bytes} :
    IsShortest g part ↔ part = Numeral.hex g.toNat := by
  constructor
  · intro h
    rw [← h.value_eq]
    exact (Numeral.numeral_ofDigits (by decide) h.ne_nil
      (fun b hb => exists_digit_of_isLowercase (h.isLowercase b hb)) h.no_leading_zero).symm
  · rintro rfl
    refine ⟨Numeral.numeral_ne_nil, Numeral.forall_mem_numeral (by decide) fun _ =>
      isLowercase_digit, ?_, Numeral.ofHex_hex _⟩
    intro hhead
    by_cases hg : g.toNat = 0
    · rw [hg]
      rfl
    · exact absurd hhead (Numeral.head?_numeral_ne_zero (by decide) (by decide) hg)

theorem forall₂_isShortest_iff {gs : List UInt16} {parts : List Bytes} :
    List.Forall₂ IsShortest gs parts ↔ parts = gs.map fun g => Numeral.hex g.toNat := by
  induction gs generalizing parts with
  | nil => simp
  | cons g gs ih => cases parts <;> simp [isShortest_iff, ih]

/-! ## The canonical text -/

theorem spells_write (a : Address .ipv6) : Spells (write a) a.octets := by
  have hwidth : a.octets.length = 16 := a.length_octets
  have hoctets : octets (groups a.octets) = a.octets := octets_groups a.octets (by omega)
  have hlength : (groups a.octets).length = 8 := by
    rw [length_groups, hwidth]
  cases hrun : longestZeroRun (groups a.octets) with
  | mk start length =>
    have hsplit := longestZeroRun_split hrun
    simp only [write, hrun]
    split
    next =>
      have hfull := Spells.full _ (isGroup_of_mem_map_hex (groups a.octets)) (by simpa)
      rwa [flatMap_groupOctets_hex, hoctets] at hfull
    next hlong =>
      generalize (groups a.octets).take start = hs at *
      generalize (groups a.octets).drop (start + length) = ts at *
      rw [← hsplit, List.length_append, List.length_append, List.length_replicate] at hlength
      have helided := Spells.elided _ _ (isGroup_of_mem_map_hex hs) (isGroup_of_mem_map_hex ts)
        (by simp; omega)
      have hzeros : 2 * (8 - (hs.length + ts.length)) = 2 * length := by omega
      rw [flatMap_groupOctets_hex, flatMap_groupOctets_hex, List.length_map, List.length_map,
        hzeros, ← octets_replicate_zero, ← octets_append, ← octets_append, hsplit, hoctets]
        at helided
      simpa [writeGroups] using helided

/-- The texts in which every group is as short as it can be, and the first of the longest runs of
zeros is left out if any run holds two of them. -/
inductive IsCompressed (gs : List UInt16) : Bytes → Prop
  | whole (parts : List Bytes) (hparts : List.Forall₂ IsShortest gs parts)
      (hnone : ∀ s l, IsZeroRun gs s l → l < 2) :
    IsCompressed gs (Bytes.join Byte.colon parts)
  | elided (start length : Nat) (hs ts : List Bytes) (hrun : IsFirstLongest gs start length)
      (htwo : 2 ≤ length) (hhs : List.Forall₂ IsShortest (gs.take start) hs)
      (hts : List.Forall₂ IsShortest (gs.drop (start + length)) ts) :
    IsCompressed gs (Bytes.join Byte.colon hs ++ [Byte.colon, Byte.colon] ++
      Bytes.join Byte.colon ts)

theorem isCompressed_iff {gs : List UInt16} {start length : Nat} {text : Bytes}
    (h : IsFirstLongest gs start length) :
    IsCompressed gs text ↔
      text = if length < 2 then writeGroups gs
        else writeGroups (gs.take start) ++ [Byte.colon, Byte.colon] ++
          writeGroups (gs.drop (start + length)) := by
  constructor
  · intro htext
    cases htext with
    | whole parts hparts hnone =>
      rw [if_pos (hnone start length h.isRun), forall₂_isShortest_iff.mp hparts, writeGroups]
    | elided start' length' hs ts hrun htwo hhs hts =>
      obtain ⟨rfl, rfl⟩ := h.unique hrun
      rw [if_neg (Nat.not_lt.mpr htwo), forall₂_isShortest_iff.mp hhs,
        forall₂_isShortest_iff.mp hts, writeGroups, writeGroups]
  · rintro rfl
    split
    next hshort =>
      exact .whole _ (forall₂_isShortest_iff.mpr rfl) fun s l hrun =>
        Nat.lt_of_le_of_lt (h.longest s l hrun) hshort
    next hlong =>
      exact .elided start length _ _ h (Nat.le_of_not_lt hlong) (forall₂_isShortest_iff.mpr rfl)
        (forall₂_isShortest_iff.mpr rfl)

/-- Writes groups with the run left out that one pass over them finds. -/
def writeInOnePass (gs : List UInt16) : Bytes :=
  let t := onePass gs
  if t.bestLength < 2 then writeGroups gs
  else
    writeGroups (gs.take t.bestStart) ++ [Byte.colon, Byte.colon] ++
      writeGroups (gs.drop (t.bestStart + t.bestLength))

/-- An address of eight groups is written as the one compressed text of these groups, and one pass
over the groups is enough to write it. -/
theorem written_as_only_compressed_text (a : Address .ipv6) :
    (groups a.octets).length = 8 ∧ octets (groups a.octets) = a.octets ∧
      (∀ text, IsCompressed (groups a.octets) text ↔ text = write a) ∧
      writeInOnePass (groups a.octets) = write a := by
  have hwidth : a.octets.length = 16 := a.length_octets
  refine ⟨by rw [length_groups, hwidth], octets_groups a.octets (by omega), ?_, ?_⟩
  · intro text
    exact isCompressed_iff (isFirstLongest_longestZeroRun (groups a.octets))
  · rw [writeInOnePass, write, longestZeroRun_eq_onePass]

end NetLiteral.Ipv6
