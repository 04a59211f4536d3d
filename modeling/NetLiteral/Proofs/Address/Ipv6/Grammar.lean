import NetLiteral.Address.Ipv6
import NetLiteral.Proofs.Address.Octets
import NetLiteral.Proofs.Bytes.Join
import NetLiteral.Proofs.Numeral

/-!
# The grammar of IPv6 addresses

A text spells an address either by eight groups or by two lists of at most seven groups on the two
sides of a double colon. The reader accepts exactly these texts, each with the octets it spells.
-/

namespace NetLiteral.Ipv6

/-! ## The grammar -/

/-- One to four hexadecimal digits. -/
def IsGroup (part : Bytes) : Prop :=
  part ≠ [] ∧ part.length ≤ 4 ∧ ∀ b ∈ part, Byte.isHexDigit b = true

/-- The two octets that a group stands for, most significant first. -/
def groupOctets (part : Bytes) : Bytes :=
  [UInt8.ofNat (Numeral.ofHex part / 256), UInt8.ofNat (Numeral.ofHex part % 256)]

/-- The texts of IPv6 addresses with the octets they stand for. -/
inductive Spells : Bytes → Bytes → Prop
  | full (gs : List Bytes) (hgs : ∀ g ∈ gs, IsGroup g) (hlength : gs.length = 8) :
    Spells (Bytes.join Byte.colon gs) (gs.flatMap groupOctets)
  | elided (hs ts : List Bytes) (hhs : ∀ h ∈ hs, IsGroup h) (hts : ∀ t ∈ ts, IsGroup t)
      (hlength : hs.length + ts.length ≤ 7) :
    Spells (Bytes.join Byte.colon hs ++ Byte.colon :: Byte.colon :: Bytes.join Byte.colon ts)
      (hs.flatMap groupOctets ++ List.replicate (2 * (8 - (hs.length + ts.length))) 0 ++
        ts.flatMap groupOctets)

theorem length_flatMap_groupOctets (ps : List Bytes) :
    (ps.flatMap groupOctets).length = 2 * ps.length := by
  induction ps with
  | nil => rfl
  | cons p ps ih =>
    rw [List.flatMap_cons, List.length_append, ih, List.length_cons, groupOctets]
    simp
    omega

theorem Spells.length_octets {text os : Bytes} (h : Spells text os) :
    os.length = Family.ipv6.width := by
  cases h with
  | full gs _ hlength => rw [length_flatMap_groupOctets, hlength]; rfl
  | elided hs ts _ _ hlength =>
    have hwidth : Family.ipv6.width = 16 := rfl
    simp only [List.length_append, length_flatMap_groupOctets, List.length_replicate, hwidth]
    omega

/-- Only hexadecimal digits and colons spell an address. -/
theorem Spells.isIpv6 {text os : Bytes} (h : Spells text os) :
    ∀ b ∈ text, Byte.isIpv6 b = true := by
  have hjoin (gs : List Bytes) (hgs : ∀ g ∈ gs, IsGroup g) :
      ∀ b ∈ Bytes.join Byte.colon gs, Byte.isIpv6 b = true := by
    apply Bytes.forall_mem_join (P := fun b => Byte.isIpv6 b = true) rfl
    intro g hg b hb
    simp [Byte.isIpv6, (hgs g hg).2.2 b hb]
  cases h with
  | full gs hgs _ => exact hjoin gs hgs
  | elided hs ts hhs hts _ =>
    intro b hb
    simp only [List.mem_append, List.mem_cons] at hb
    rcases hb with hb | rfl | rfl | hb
    · exact hjoin hs hhs b hb
    · rfl
    · rfl
    · exact hjoin ts hts b hb

/-- One colon does not make an address. -/
theorem Spells.two_le_count_colon {text os : Bytes} (h : Spells text os) :
    2 ≤ text.count Byte.colon := by
  cases h with
  | full gs _ hlength =>
    have hcount := Bytes.length_le_count_join Byte.colon gs
    omega
  | elided hs ts _ _ _ =>
    rw [List.count_append, List.count_cons_self, List.count_cons_self]
    omega

theorem Spells.colon_mem {text os : Bytes} (h : Spells text os) : Byte.colon ∈ text :=
  List.count_pos_iff.mp (Nat.lt_of_lt_of_le Nat.two_pos h.two_le_count_colon)

/-! ## Groups -/

/-- The value of a group. -/
def groupValue (part : Bytes) : UInt16 :=
  UInt16.ofNat (Numeral.ofHex part)

theorem IsGroup.ofHex_lt {part : Bytes} (h : IsGroup part) : Numeral.ofHex part < 65536 := by
  calc
    Numeral.ofHex part < 16 ^ part.length := Numeral.ofHex_lt h.2.2
    _ ≤ 16 ^ 4 := Nat.pow_le_pow_right (by decide) h.2.1
    _ = 65536 := by decide

theorem IsGroup.colon_not_mem {part : Bytes} (h : IsGroup part) : Byte.colon ∉ part := by
  intro hmem
  exact Bool.false_ne_true (h.2.2 Byte.colon hmem)

theorem group?_eq_some_iff {part : Bytes} {g : UInt16} :
    group? part = some g ↔ IsGroup part ∧ groupValue part = g := by
  simp only [group?, IsGroup, groupValue, Option.ite_none_left_eq_some, Bool.or_eq_true,
    List.isEmpty_iff, decide_eq_true_eq, Bool.not_eq_true', not_or, Bool.not_eq_false,
    List.all_eq_true, Nat.not_lt, Option.some.injEq, and_assoc]

/-- Groups are read from the texts that join them, no groups from the empty text. -/
theorem groups?_eq_some_iff {text : Bytes} {gs : List UInt16} :
    groups? text = some gs ↔
      ∃ ps : List Bytes, (∀ p ∈ ps, IsGroup p) ∧ text = Bytes.join Byte.colon ps ∧
        gs = ps.map groupValue := by
  rw [groups?]
  split
  next hempty =>
    rw [List.isEmpty_iff] at hempty
    constructor
    · intro h
      cases h
      exact ⟨[], by simp, hempty, rfl⟩
    · rintro ⟨ps, hps, htext, rfl⟩
      have hnil : ps = [] := by
        by_contra hne
        exact Bytes.join_ne_nil hne (fun p hp => (hps p hp).1) (htext.symm.trans hempty)
      rw [hnil]
      rfl
  next hempty =>
    rw [Bytes.mapM_splitOn_eq_some_iff (fun _ _ => group?_eq_some_iff)
      fun _ => IsGroup.colon_not_mem]
    constructor
    · rintro ⟨ps, _, hps, htext, hgs⟩
      exact ⟨ps, hps, htext, hgs⟩
    · rintro ⟨ps, hps, htext, hgs⟩
      refine ⟨ps, ?_, hps, htext, hgs⟩
      rintro rfl
      exact hempty (List.isEmpty_iff.mpr htext)

/-! ## The double colon -/

theorem eq_append_of_splitElision? {text head tail : Bytes}
    (h : splitElision? text = some (head, tail)) :
    text = head ++ Byte.colon :: Byte.colon :: tail := by
  fun_induction splitElision? text generalizing head tail with
  | case1 a b rest hcolons =>
    obtain ⟨rfl, rfl⟩ := hcolons
    cases h
    rfl
  | case2 a b rest _ ih =>
    obtain ⟨⟨before, after⟩, hsplit, heq⟩ := Option.map_eq_some_iff.mp h
    cases heq
    rw [List.cons_append, ← ih hsplit]
  | case3 => cases h

/-- The double colon is not looked for in bytes that are not colons. -/
theorem splitElision?_append {g : Bytes} (hg : Byte.colon ∉ g) (rest : Bytes) :
    splitElision? (g ++ rest) =
      (splitElision? rest).map fun (head, tail) => (g ++ head, tail) := by
  induction g with
  | nil => cases h : splitElision? rest <;> simp [h]
  | cons a g ih =>
    obtain ⟨ha, hg⟩ := not_or.mp (mt List.mem_cons.mpr hg)
    cases hrest : g ++ rest with
    | nil =>
      obtain ⟨rfl, rfl⟩ := List.append_eq_nil_iff.mp hrest
      rfl
    | cons b bs =>
      rw [List.cons_append, hrest, splitElision?, if_neg fun h => ha h.1.symm, ← hrest, ih hg,
        Option.map_map]
      rfl

theorem splitElision?_colon_cons {b : UInt8} (hb : b ≠ Byte.colon) (rest : Bytes) :
    splitElision? (Byte.colon :: b :: rest) =
      (splitElision? (b :: rest)).map fun (head, tail) => (Byte.colon :: head, tail) := by
  rw [splitElision?, if_neg fun h => hb h.2]

/-- Joined groups have no double colon, and none begins at their end. -/
theorem splitElision?_join_append {gs : List Bytes} (hgs : ∀ g ∈ gs, IsGroup g) (rest : Bytes) :
    splitElision? (Bytes.join Byte.colon gs ++ rest) =
      (splitElision? rest).map fun (head, tail) => (Bytes.join Byte.colon gs ++ head, tail) := by
  match gs, hgs with
  | [], _ => cases h : splitElision? rest <;> simp [h]
  | [g], hgs =>
    rw [Bytes.join_singleton, splitElision?_append (hgs g List.mem_cons_self).colon_not_mem]
  | g :: [] :: gs, hgs => exact absurd rfl (hgs [] (by simp)).1
  | g :: (b :: bs) :: gs, hgs =>
    obtain ⟨hg, hgs⟩ := List.forall_mem_cons.mp hgs
    have ih := splitElision?_join_append hgs rest
    have hb : b ≠ Byte.colon := by
      rintro rfl
      exact (hgs _ List.mem_cons_self).colon_not_mem List.mem_cons_self
    rw [Bytes.join_cons_cons_left, List.cons_append] at ih
    rw [Bytes.join_cons_cons, Bytes.join_cons_cons_left, List.append_assoc,
      splitElision?_append hg.colon_not_mem, List.cons_append, List.cons_append,
      splitElision?_colon_cons hb, ih]
    simp only [Option.map_map, Function.comp_def, List.append_assoc, List.cons_append]

theorem splitElision?_join {gs : List Bytes} (hgs : ∀ g ∈ gs, IsGroup g) :
    splitElision? (Bytes.join Byte.colon gs) = none := by
  have h := splitElision?_join_append hgs []
  rwa [List.append_nil] at h

theorem splitElision?_join_colons {gs : List Bytes} (hgs : ∀ g ∈ gs, IsGroup g) (rest : Bytes) :
    splitElision? (Bytes.join Byte.colon gs ++ Byte.colon :: Byte.colon :: rest) =
      some (Bytes.join Byte.colon gs, rest) := by
  rw [splitElision?_join_append hgs, splitElision?, if_pos ⟨rfl, rfl⟩]
  simp only [Option.map_some, List.append_nil]

/-! ## Octets of groups -/

@[simp] theorem octets_ofGroups (gs : List UInt16) (h : gs.length = 8) :
    (ofGroups gs h).octets = octets gs :=
  rfl

theorem octets_append (gs gs' : List UInt16) : octets (gs ++ gs') = octets gs ++ octets gs' := by
  induction gs with
  | nil => rfl
  | cons g gs ih => rw [List.cons_append, octets, octets, ih]; rfl

theorem octets_replicate_zero (n : Nat) :
    octets (List.replicate n 0) = List.replicate (2 * n) 0 := by
  induction n with
  | zero => rfl
  | succ n ih => rw [List.replicate_succ, octets, ih, Nat.mul_succ]; rfl

theorem octets_map_groupValue {ps : List Bytes} (h : ∀ p ∈ ps, IsGroup p) :
    octets (ps.map groupValue) = ps.flatMap groupOctets := by
  induction ps with
  | nil => rfl
  | cons p ps ih =>
    obtain ⟨hp, hps⟩ := List.forall_mem_cons.mp h
    have hlt := hp.ofHex_lt
    have hhigh : (groupValue p >>> 8).toUInt8 = UInt8.ofNat (Numeral.ofHex p / 256) := by
      rw [← UInt8.toNat_inj, UInt16.toNat_toUInt8, UInt16.toNat_shiftRight, groupValue,
        UInt16.toNat_ofNat_of_lt' hlt, UInt8.toNat_ofNat']
      simp only [UInt16.reduceToNat, Nat.reduceMod, Nat.shiftRight_eq_div_pow, Nat.reducePow]
    have hlow : (groupValue p).toUInt8 = UInt8.ofNat (Numeral.ofHex p % 256) := by
      rw [← UInt8.toNat_inj, UInt16.toNat_toUInt8, groupValue, UInt16.toNat_ofNat_of_lt' hlt,
        UInt8.toNat_ofNat']
      omega
    rw [List.map_cons, octets, List.flatMap_cons, ih hps, hhigh, hlow]
    rfl

/-! ## The reader -/

/-- Joined groups are read as their values. -/
theorem groups?_join {gs : List Bytes} (hgs : ∀ g ∈ gs, IsGroup g) :
    groups? (Bytes.join Byte.colon gs) = some (gs.map groupValue) :=
  groups?_eq_some_iff.mpr ⟨gs, hgs, rfl, rfl⟩

theorem spells_of_read?_eq_some {text : Bytes} {a : Address .ipv6} (h : read? text = some a) :
    Spells text a.octets := by
  rw [read?] at h
  cases hsplit : splitElision? text with
  | none =>
    simp only [hsplit, Option.bind_eq_bind, Option.bind_eq_some_iff] at h
    obtain ⟨gs, hgs, h⟩ := h
    obtain ⟨ps, hps, rfl, rfl⟩ := groups?_eq_some_iff.mp hgs
    split at h
    next hlength =>
      cases h
      rw [octets_ofGroups, octets_map_groupValue hps]
      exact .full ps hps (by simpa using hlength)
    next => cases h
  | some parts =>
    obtain ⟨head, tail⟩ := parts
    rw [eq_append_of_splitElision? hsplit]
    simp only [hsplit, Option.ite_none_left_eq_some, Option.bind_eq_bind,
      Option.bind_eq_some_iff] at h
    obtain ⟨_, hs, hhs, ts, hts, h⟩ := h
    obtain ⟨hps, hheads, rfl, rfl⟩ := groups?_eq_some_iff.mp hhs
    obtain ⟨tps, htails, rfl, rfl⟩ := groups?_eq_some_iff.mp hts
    split at h
    next hlength =>
      cases h
      rw [List.length_map, List.length_map] at hlength
      simp only [octets_ofGroups, octets_append, octets_replicate_zero,
        octets_map_groupValue hheads, octets_map_groupValue htails, List.length_map]
      exact .elided hps tps hheads htails hlength
    next => cases h

theorem read?_eq_some_of_spells {text : Bytes} {a : Address .ipv6} (h : Spells text a.octets) :
    read? text = some a := by
  generalize ho : a.octets = os at h
  cases h with
  | full gs hgs hlength =>
    have hlength' : (gs.map groupValue).length = 8 := by rw [List.length_map, hlength]
    rw [read?, splitElision?_join hgs]
    simp only [groups?_join hgs, Option.bind_eq_bind, Option.bind_some, dif_pos hlength',
      Option.pure_def, Option.some.injEq]
    apply Address.ext_octets
    rw [ho, octets_ofGroups, octets_map_groupValue hgs]
  | elided hs ts hhs hts hlength =>
    have hlength' : (hs.map groupValue).length + (ts.map groupValue).length ≤ 7 := by
      rw [List.length_map, List.length_map]
      exact hlength
    rw [read?, splitElision?_join_colons hhs]
    simp only [splitElision?_join hts, Option.isSome_none, Bool.false_eq_true, if_false,
      groups?_join hhs, groups?_join hts, Option.bind_eq_bind, Option.bind_some,
      dif_pos hlength', Option.pure_def, Option.some.injEq]
    apply Address.ext_octets
    simp only [ho, octets_ofGroups, octets_append, octets_replicate_zero, octets_map_groupValue hhs,
      octets_map_groupValue hts, List.length_map]

theorem read?_eq_some_iff {text : Bytes} {a : Address .ipv6} :
    read? text = some a ↔ Spells text a.octets :=
  ⟨spells_of_read?_eq_some, read?_eq_some_of_spells⟩

end NetLiteral.Ipv6
