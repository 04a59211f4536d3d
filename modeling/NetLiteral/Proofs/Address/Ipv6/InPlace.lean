import NetLiteral.Proofs.Address.Ipv6.Grammar
import NetLiteral.Proofs.Bytes.Checked

/-!
# Reading IPv6 addresses in place

A reader that works on offsets of the text and on a fixed number of places: it slices the text
around the double colon, copies the groups before it to the front and those after it to the back of
eight zeros, and copies the halves of every group into two of sixteen octets. Each slice and copy
is checked. On every text the reader ends without a fault and reads the same address as `read?`.
-/

namespace NetLiteral.Ipv6

open Bytes (slice overwrite difference)

/-! ## The reader -/

/-- The offset of the first double colon. -/
def elisionAt? : Bytes → Option Nat
  | a :: b :: rest =>
    if a = Byte.colon ∧ b = Byte.colon then some 0
    else (elisionAt? (b :: rest)).map (· + 1)
  | _ => none

/-- The text before the double colon and the text after it, if there is one. -/
def cut (text : Bytes) : Except Fault (Option (Bytes × Option Bytes)) :=
  match elisionAt? text with
  | none => return some (text, none)
  | some offset => do
    let tail ← slice text (offset + 2) text.length
    if (elisionAt? tail).isSome then return none
    let head ← slice text 0 offset
    return some (head, some tail)

/-- Reads one more group, of which there is room for eight. -/
def pushGroup? (gs : List UInt16) (part : Bytes) : Option (List UInt16) :=
  if part.isEmpty || 4 < part.length || gs.length == 8 then none
  else if !part.all Byte.isHexDigit then none
  else if Numeral.ofHex part < UInt16.size then some (gs ++ [UInt16.ofNat (Numeral.ofHex part)])
  else none

/-- Reads at most eight groups. -/
def cappedGroups? (text : Bytes) : Option (List UInt16) :=
  if text.isEmpty then some [] else (text.splitOn Byte.colon).foldlM pushGroup? []

/-- Puts the groups on both sides of the double colon into eight places. -/
def place (hs : List UInt16) : Option (List UInt16) → Except Fault (Option (List UInt16))
  | none =>
    if hs.length ≠ 8 then return none
    else some <$> overwrite (List.replicate 8 0) 0 8 hs
  | some ts =>
    if 7 < hs.length + ts.length then return none
    else do
      let places ← overwrite (List.replicate 8 0) 0 hs.length hs
      let start ← difference 8 ts.length
      some <$> overwrite places start 8 ts

/-- Puts the halves of every group into two octets, from the pair of octets at `i` on. -/
def spread (octets : Bytes) (i : Nat) : List UInt16 → Except Fault Bytes
  | [] => return octets
  | g :: gs => do
    let octets ← overwrite octets (2 * i) (2 * i + 2) [(g >>> 8).toUInt8, g.toUInt8]
    spread octets (i + 1) gs

/-- The octets of the groups on both sides of the double colon. -/
def fill (hs : List UInt16) (ts : Option (List UInt16)) : Except Fault (Option Bytes) := do
  let some gs ← place hs ts | return none
  some <$> spread (List.replicate 16 0) 0 gs

/-- Reads the octets of an address in place. -/
def readInPlace (text : Bytes) : Except Fault (Option Bytes) := do
  let some (head, tail) ← cut text | return none
  let some hs := cappedGroups? head | return none
  let some ts := tail.mapM cappedGroups? | return none
  fill hs ts

/-! ## The double colon -/

theorem elisionAt?_eq_map (text : Bytes) :
    elisionAt? text = (splitElision? text).map fun (head, _) => head.length := by
  fun_induction splitElision? text with
  | case1 a b rest h => rw [elisionAt?, if_pos h]; rfl
  | case2 a b rest h ih =>
    rw [elisionAt?, if_neg h, ih, Option.map_map, Option.map_map]
    rfl
  | case3 text h =>
    rw [elisionAt?]
    · rfl
    · exact h

/-- Both slices around a double colon lie between characters, since a colon is a character of its
own. -/
theorem slices_around_elision {s : String} {head tail : Bytes}
    (h : splitElision? (Bytes.ofString s) = some (head, tail)) :
    slice (Bytes.ofString s) (head.length + 2) (Bytes.ofString s).length = .ok tail ∧
      slice (Bytes.ofString s) 0 head.length = .ok head := by
  have htext := eq_append_of_splitElision? h
  have hcolons : Bytes.ofString s = (head ++ [Byte.colon]) ++ Byte.colon :: tail := by
    simpa using htext
  obtain ⟨_, after, _, hafter⟩ := Bytes.exists_split_ofString rfl hcolons
  constructor
  · have htail : ∀ b, tail.head? = some b → Bytes.isContinuation b = false := by
      intro b hb
      rw [hafter] at hb
      exact Bytes.not_isContinuation_of_head? hb
    rw [show Bytes.ofString s = (head ++ [Byte.colon, Byte.colon]) ++ tail by simpa using htext]
    simpa using Bytes.slice_suffix (head ++ [Byte.colon, Byte.colon]) htail
  · have hcolon : ∀ b, (Byte.colon :: Byte.colon :: tail).head? = some b →
        Bytes.isContinuation b = false := by
      intro b hb
      cases hb
      rfl
    rw [htext]
    exact Bytes.slice_prefix head hcolon

theorem cut_ofString (s : String) :
    cut (Bytes.ofString s) = .ok (match splitElision? (Bytes.ofString s) with
      | none => some (Bytes.ofString s, none)
      | some (head, tail) =>
        if (splitElision? tail).isSome then none else some (head, some tail)) := by
  cases hsplit : splitElision? (Bytes.ofString s) with
  | none =>
    rw [cut, elisionAt?_eq_map, hsplit]
    rfl
  | some parts =>
    obtain ⟨head, tail⟩ := parts
    obtain ⟨htail, hhead⟩ := slices_around_elision hsplit
    rw [cut, elisionAt?_eq_map, hsplit]
    simp only [Option.map_some, htail, hhead, elisionAt?_eq_map, Option.isSome_map, Bytes.ok_bind]
    cases (splitElision? tail).isSome <;> rfl

/-! ## Groups -/

theorem pushGroup?_eq (gs : List UInt16) (part : Bytes) :
    pushGroup? gs part = if gs.length = 8 then none else (group? part).map (gs ++ [·]) := by
  by_cases hlength : gs.length = 8
  · simp [pushGroup?, hlength]
  · by_cases hgroup : IsGroup part
    · have hlt : Numeral.ofHex part < UInt16.size := hgroup.ofHex_lt
      rw [if_neg hlength, group?_eq_some_iff.mpr ⟨hgroup, rfl⟩]
      obtain ⟨hne, hle, hhex⟩ := hgroup
      simp [pushGroup?, groupValue, hlength, hne, Nat.not_lt.mpr hle, hlt]
      exact hhex
    · have hnone : group? part = none := by
        rw [Option.eq_none_iff_forall_ne_some]
        exact fun g h => hgroup (group?_eq_some_iff.mp h).1
      rw [if_neg hlength, hnone]
      simp [pushGroup?]
      intro hne hle _ hhex
      exact absurd ⟨hne, hle, hhex⟩ hgroup

theorem foldlM_pushGroup? (parts : List Bytes) (gs : List UInt16) (h : gs.length ≤ 8) :
    parts.foldlM pushGroup? gs =
      ((parts.mapM group?).map (gs ++ ·)).filter fun hs => hs.length ≤ 8 := by
  induction parts generalizing gs with
  | nil => simp [Option.filter, h]
  | cons p ps ih =>
    rw [List.foldlM_cons, List.mapM_cons, pushGroup?_eq]
    cases hp : group? p with
    | none => simp
    | some g =>
      by_cases hlength : gs.length = 8
      · rw [if_pos hlength]
        cases ps.mapM group? <;> simp [Option.filter, hlength]
      · have ih' := ih (gs ++ [g]) (by simp; omega)
        rw [if_neg hlength]
        cases hps : ps.mapM group? <;> simp [ih', hps]

/-- The bound on the number of groups is the only difference to `groups?`. -/
theorem cappedGroups?_eq (text : Bytes) :
    cappedGroups? text = (groups? text).filter fun gs => gs.length ≤ 8 := by
  rw [cappedGroups?, groups?]
  split
  next => rfl
  next => rw [foldlM_pushGroup? _ _ (by simp)]; simp

/-! ## Places -/

theorem place_none (hs : List UInt16) :
    place hs none = .ok (if hs.length = 8 then some hs else none) := by
  rw [place]
  by_cases h : hs.length = 8
  · rw [if_neg (not_not.mpr h), if_pos h, Bytes.overwrite_eq_ok (by omega) (by simp) h]
    simp
  · rw [if_pos h, if_neg h]
    rfl

theorem place_some (hs ts : List UInt16) :
    place hs (some ts) = .ok (if hs.length + ts.length ≤ 7 then
      some (hs ++ List.replicate (8 - (hs.length + ts.length)) 0 ++ ts) else none) := by
  rw [place]
  by_cases h : hs.length + ts.length ≤ 7
  · have hfront : overwrite (List.replicate 8 0) 0 hs.length hs =
        .ok (hs ++ List.replicate (8 - hs.length) 0) := by
      rw [Bytes.overwrite_eq_ok (by omega) (by simp; omega) rfl]
      simp only [List.take_zero, List.nil_append, List.drop_replicate]
    have hback : overwrite (hs ++ List.replicate (8 - hs.length) 0) (8 - ts.length) 8 ts =
        .ok (hs ++ List.replicate (8 - (hs.length + ts.length)) 0 ++ ts) := by
      have htake : (hs ++ List.replicate (8 - hs.length) 0).take (8 - ts.length) =
          hs ++ List.replicate (8 - (hs.length + ts.length)) 0 := by
        rw [List.take_append, List.take_of_length_le (by omega), List.take_replicate]
        congr 2
        omega
      have hdrop : (hs ++ List.replicate (8 - hs.length) (0 : UInt16)).drop 8 = [] := by
        rw [List.drop_eq_nil_iff]
        simp
        omega
      rw [Bytes.overwrite_eq_ok (by omega) (by simp; omega) (by omega), htake, hdrop,
        List.append_nil]
    rw [if_neg (by omega), if_pos h, hfront, Bytes.difference_eq_ok (by omega)]
    simp only [Bytes.ok_bind, hback, Bytes.map_ok]
  · rw [if_pos (by omega), if_neg h]
    rfl

theorem spread_append (front old : Bytes) {i : Nat} {gs : List UInt16}
    (hfront : front.length = 2 * i) (hold : old.length = 2 * gs.length) :
    spread (front ++ old) i gs = .ok (front ++ octets gs) := by
  induction gs generalizing front old i with
  | nil =>
    rw [List.length_eq_zero_iff.mp hold, octets]
    rfl
  | cons g gs ih =>
    rw [List.length_cons] at hold
    have hpair : overwrite (front ++ old) (2 * i) (2 * i + 2) [(g >>> 8).toUInt8, g.toUInt8] =
        .ok ((front ++ [(g >>> 8).toUInt8, g.toUInt8]) ++ old.drop 2) := by
      rw [Bytes.overwrite_eq_ok (by omega) (by simp; omega) (by simp), ← hfront,
        List.take_left, List.drop_length_add_append]
    rw [spread, hpair, Bytes.ok_bind, ih _ _ (by simp; omega) (by simp; omega), octets]
    simp

theorem spread_zeros {gs : List UInt16} (h : gs.length = 8) :
    spread (List.replicate 16 0) 0 gs = .ok (octets gs) :=
  spread_append [] (List.replicate 16 0) rfl (by rw [List.length_replicate, h])

theorem fill_none (hs : List UInt16) :
    fill hs none = .ok (if hs.length = 8 then some (octets hs) else none) := by
  rw [fill, place_none]
  by_cases h : hs.length = 8
  · simp only [h, if_true, Bytes.ok_bind, spread_zeros h, Bytes.map_ok]
  · simp only [h, if_false, Bytes.ok_bind]
    rfl

theorem fill_some (hs ts : List UInt16) :
    fill hs (some ts) = .ok (if hs.length + ts.length ≤ 7 then
      some (octets (hs ++ List.replicate (8 - (hs.length + ts.length)) 0 ++ ts)) else none) := by
  rw [fill, place_some]
  by_cases h : hs.length + ts.length ≤ 7
  · have hlength : (hs ++ List.replicate (8 - (hs.length + ts.length)) 0 ++ ts).length = 8 := by
      simp
      omega
    simp only [h, if_true, Bytes.ok_bind, spread_zeros hlength, Bytes.map_ok]
  · simp only [h, if_false, Bytes.ok_bind]
    rfl

/-! ## Every text is read without a fault -/

theorem readInPlace_of_full {text : Bytes} (hcut : cut text = .ok (some (text, none))) :
    readInPlace text = .ok ((groups? text).bind fun gs =>
      if gs.length = 8 then some (octets gs) else none) := by
  rw [readInPlace, hcut]
  cases hgroups : groups? text with
  | none => simp [cappedGroups?_eq, hgroups]; rfl
  | some gs =>
    by_cases hcap : gs.length ≤ 8
    · simp [cappedGroups?_eq, hgroups, Option.filter, hcap, fill_none]
    · have hlength : gs.length ≠ 8 := by omega
      simp [cappedGroups?_eq, hgroups, Option.filter, hcap, hlength]
      rfl

theorem readInPlace_of_elided {text head tail : Bytes}
    (hcut : cut text = .ok (some (head, some tail))) :
    readInPlace text = .ok ((groups? head).bind fun hs => (groups? tail).bind fun ts =>
      if hs.length + ts.length ≤ 7 then
        some (octets (hs ++ List.replicate (8 - (hs.length + ts.length)) 0 ++ ts))
      else none) := by
  rw [readInPlace, hcut]
  cases hhead : groups? head with
  | none => simp [cappedGroups?_eq, hhead]; rfl
  | some hs =>
    by_cases hcapHead : hs.length ≤ 8
    · cases htail : groups? tail with
      | none => simp [cappedGroups?_eq, hhead, htail, Option.filter, hcapHead]; rfl
      | some ts =>
        by_cases hcapTail : ts.length ≤ 8
        · simp [cappedGroups?_eq, hhead, htail, Option.filter, hcapHead, hcapTail, fill_some]
        · have hlength : ¬hs.length + ts.length ≤ 7 := by omega
          simp [cappedGroups?_eq, hhead, htail, Option.filter, hcapHead, hcapTail, hlength]
          rfl
    · have hlength (ts : List UInt16) : ¬hs.length + ts.length ≤ 7 := by omega
      simp [cappedGroups?_eq, hhead, Option.filter, hcapHead, hlength]
      rfl

/-- On a text the reader in place ends without a fault, with the octets that `read?` gives. -/
theorem readInPlace_ofString (s : String) :
    readInPlace (Bytes.ofString s) = .ok ((read? (Bytes.ofString s)).map Address.octets) := by
  have hcut := cut_ofString s
  rw [read?]
  cases hsplit : splitElision? (Bytes.ofString s) with
  | none =>
    rw [hsplit] at hcut
    rw [readInPlace_of_full hcut]
    simp [Option.map_bind, Function.comp_def, apply_dite (Option.map Address.octets)]
  | some parts =>
    obtain ⟨head, tail⟩ := parts
    by_cases helision : (splitElision? tail).isSome = true
    · rw [hsplit] at hcut
      rw [readInPlace, hcut]
      simp [helision]
      rfl
    · simp only [hsplit, helision] at hcut
      rw [readInPlace_of_elided hcut]
      simp [helision, Option.map_bind, Function.comp_def,
        apply_dite (Option.map Address.octets)]

/-! ## The reader accepts exactly the grammar -/

/-- A text is read exactly if it spells an address, as the octets it spells, and reading it never
leaves the bounds of the text or of the places that the groups and octets are copied into. -/
theorem reads_exactly_spelled_addresses (s : String) :
    (∀ a, read? (Bytes.ofString s) = some a ↔ Spells (Bytes.ofString s) a.octets) ∧
      (read? (Bytes.ofString s) = none ↔ ∀ os, ¬Spells (Bytes.ofString s) os) ∧
      readInPlace (Bytes.ofString s) = .ok ((read? (Bytes.ofString s)).map Address.octets) := by
  refine ⟨fun a => read?_eq_some_iff, ?_, readInPlace_ofString s⟩
  constructor
  · intro hnone os hspells
    have h := read?_eq_some_of_spells (a := ⟨os, hspells.length_octets⟩) hspells
    rw [hnone] at h
    cases h
  · intro h
    rw [Option.eq_none_iff_forall_ne_some]
    intro a hread
    exact h a.octets (spells_of_read?_eq_some hread)

end NetLiteral.Ipv6
