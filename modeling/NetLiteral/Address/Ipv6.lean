import NetLiteral.Address.Basic

/-!
# IPv6 addresses as text

Eight groups of sixteen bits, each written as one to four hexadecimal digits and joined by colons.
A double colon stands once for one or more groups of zeros. The canonical text is lowercase, has no
leading zeros, and writes a double colon for the earliest of the longest runs of at least two zero
groups.
-/

namespace NetLiteral.Ipv6

/-! ## Groups -/

def group (hi lo : UInt8) : UInt16 :=
  UInt16.ofNat (256 * hi.toNat + lo.toNat)

def groups : Bytes → List UInt16
  | hi :: lo :: rest => group hi lo :: groups rest
  | _ => []

def octets : List UInt16 → Bytes
  | [] => []
  | g :: gs => (g >>> 8).toUInt8 :: g.toUInt8 :: octets gs

theorem length_octets (gs : List UInt16) : (octets gs).length = 2 * gs.length := by
  induction gs with
  | nil => rfl
  | cons g gs ih => simp only [octets, List.length_cons, ih]; omega

theorem length_groups : (bs : Bytes) → (groups bs).length = bs.length / 2
  | [] => rfl
  | [_] => by simp [groups]
  | _ :: _ :: rest => by
    simp only [groups, List.length_cons, length_groups rest]
    omega

theorem group_halves (g : UInt16) : group (g >>> 8).toUInt8 g.toUInt8 = g := by
  have hg := g.toNat_lt
  rw [← UInt16.toNat_inj, group, UInt16.toNat_ofNat', UInt16.toNat_toUInt8, UInt16.toNat_toUInt8,
    UInt16.toNat_shiftRight]
  simp only [UInt16.reduceToNat, Nat.reduceMod, Nat.shiftRight_eq_div_pow]
  omega

theorem toNat_group (hi lo : UInt8) : (group hi lo).toNat = 256 * hi.toNat + lo.toNat := by
  have hh := hi.toNat_lt
  have hl := lo.toNat_lt
  rw [group, UInt16.toNat_ofNat']
  omega

theorem high_group (hi lo : UInt8) : (group hi lo >>> 8).toUInt8 = hi := by
  have hh := hi.toNat_lt
  have hl := lo.toNat_lt
  rw [← UInt8.toNat_inj, UInt16.toNat_toUInt8, UInt16.toNat_shiftRight, toNat_group]
  simp only [UInt16.reduceToNat, Nat.reduceMod, Nat.shiftRight_eq_div_pow]
  omega

theorem low_group (hi lo : UInt8) : (group hi lo).toUInt8 = lo := by
  have hl := lo.toNat_lt
  rw [← UInt8.toNat_inj, UInt16.toNat_toUInt8, toNat_group]
  omega

theorem groups_octets (gs : List UInt16) : groups (octets gs) = gs := by
  induction gs with
  | nil => rfl
  | cons g gs ih => rw [octets, groups, group_halves, ih]

/-- An even number of octets is read back from their groups. -/
theorem octets_groups : (bs : Bytes) → 2 ∣ bs.length → octets (groups bs) = bs
  | [], _ => rfl
  | [_], h => by simp at h
  | hi :: lo :: bs, h => by
    have h' : 2 ∣ bs.length := by simp only [List.length_cons] at h; omega
    rw [groups, octets, high_group, low_group, octets_groups bs h']

def ofGroups (gs : List UInt16) (h : gs.length = 8) : Address .ipv6 :=
  ⟨octets gs, by rw [length_octets, h]; rfl⟩

/-! ## Reading -/

def group? (part : Bytes) : Option UInt16 :=
  if part.isEmpty || 4 < part.length || !part.all Byte.isHexDigit then none
  else some (UInt16.ofNat (Numeral.ofHex part))

/-- Reads groups joined by colons; an empty text has none. -/
def groups? (text : Bytes) : Option (List UInt16) :=
  if text.isEmpty then some [] else (text.splitOn Byte.colon).mapM group?

/-- The texts before and after the first double colon. -/
def splitElision? : Bytes → Option (Bytes × Bytes)
  | a :: b :: rest =>
    if a = Byte.colon ∧ b = Byte.colon then some ([], rest)
    else (splitElision? (b :: rest)).map fun (head, tail) => (a :: head, tail)
  | _ => none

/-- Reads an address from the whole of a text. -/
def read? (text : Bytes) : Option (Address .ipv6) :=
  match splitElision? text with
  | some (head, tail) =>
    if (splitElision? tail).isSome then none
    else do
      let hs ← groups? head
      let ts ← groups? tail
      if h : hs.length + ts.length ≤ 7 then
        let zeros := List.replicate (8 - (hs.length + ts.length)) 0
        return ofGroups (hs ++ zeros ++ ts) (by simp [zeros]; omega)
      else none
  | none => do
    let gs ← groups? text
    if h : gs.length = 8 then return ofGroups gs h else none

/-! ## Writing -/

/-- Where the earliest of the longest runs of zero groups starts, and its length. -/
def longestZeroRun : List UInt16 → Nat × Nat
  | [] => (0, 0)
  | g :: gs =>
    let here := ((g :: gs).takeWhile (· == 0)).length
    let (start, length) := longestZeroRun gs
    if length ≤ here then (0, here) else (start + 1, length)

def writeGroups (gs : List UInt16) : Bytes :=
  Bytes.join Byte.colon (gs.map fun g => Numeral.hex g.toNat)

def write (a : Address .ipv6) : Bytes :=
  let gs := groups a.octets
  let (start, length) := longestZeroRun gs
  if length < 2 then writeGroups gs
  else
    writeGroups (gs.take start) ++ [Byte.colon, Byte.colon] ++
      writeGroups (gs.drop (start + length))

end NetLiteral.Ipv6
