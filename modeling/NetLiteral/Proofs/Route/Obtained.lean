import NetLiteral.Json
import NetLiteral.Proofs.Composite
import NetLiteral.Proofs.Octets.Mask
import NetLiteral.Proofs.Reader.Scan
import NetLiteral.Proofs.RouteTable.FiniteMap

/-!
# Routes and prefix lengths as they are obtained

The types of this library hold a proof that a prefix length is no wider than its family and that a
route has no host bits. Here a length is a bare number and a route bare octets with a length, and
every way to come by one computes it without such a proof: constructors, defaults, reading at a
cursor, reading a whole text, decoding and route tables. What is obtained in any of these ways, in
any number of steps, is well formed all the same, and it is what the types hold.
-/

namespace NetLiteral

/-! ## Scans of stored values -/

namespace Scan

variable {α β : Type}

/-- Reads the whole text of a JSON string. -/
def ofJson (literal : Literal) (q : Scan β) : Json → Except Fault (Except Json.DecodeFailure β)
  | .str s => (fun r => r.mapError .rejected) <$> q.parseAll literal (Bytes.ofString s)
  | j => .ok (.error (.notString j))

/-- What a scan gives at some place, of the whole of a text or of a JSON value. -/
inductive Gives (q : Scan β) (literal : Literal) : β → Prop
  | atOffset {text offset b stop} (h : q text offset = .ok (.ok b, stop)) : q.Gives literal b
  | ofText {text b} (h : q.parseAll literal text = .ok (.ok b)) : q.Gives literal b
  | ofJson {j b} (h : q.ofJson literal j = .ok (.ok b)) : q.Gives literal b

theorem parseAll_of_ofJson {q : Scan β} {literal : Literal} {j : Json} {b : β}
    (h : q.ofJson literal j = .ok (.ok b)) : ∃ text, q.parseAll literal text = .ok (.ok b) := by
  cases j with
  | str s =>
    refine ⟨Bytes.ofString s, ?_⟩
    rw [Scan.ofJson] at h
    rcases hs : q.parseAll literal (Bytes.ofString s) with fault | e | b' <;> rw [hs] at h <;>
      cases h
    rfl
  | _ => cases h

theorem Gives.exists_offset {q : Scan β} {literal : Literal} {b : β} (h : q.Gives literal b) :
    ∃ text offset stop, q text offset = .ok (.ok b, stop) := by
  cases h with
  | atOffset h => exact ⟨_, _, _, h⟩
  | ofText h =>
    obtain ⟨stop, hq⟩ := parseAll_eq_ok h
    exact ⟨_, _, stop, hq⟩
  | ofJson h =>
    obtain ⟨text, htext⟩ := parseAll_of_ofJson h
    obtain ⟨stop, hq⟩ := parseAll_eq_ok htext
    exact ⟨_, _, stop, hq⟩

/-- `q` reads what the text form of `α` reads, with the value in the form `raw`, and is stopped
nowhere. -/
structure Mirrors (q : Scan β) (α : Type) [TextForm α] (raw : α → β) : Prop where
  atOffset : q.Follows TextForm.parser raw
  ofText : ∀ s, q.parseAll (TextForm.literal α) (Bytes.ofString s) =
    .ok ((TextForm.read α s).value.map raw)
  ofJson : ∀ j, q.ofJson (TextForm.literal α) j = .ok ((Json.toLiteral α j).value.map raw)

theorem Mirrors.of_follows [TextForm α] {q : Scan β} {raw : α → β}
    (hp : (TextForm.parser : Parser α).Forward) (hq : q.Follows TextForm.parser raw) :
    q.Mirrors α raw := by
  have htext := hq.parseAll hp (TextForm.literal α)
  refine ⟨hq, htext, ?_⟩
  intro j
  cases j with
  | str s =>
    rw [Scan.ofJson, htext, Json.toLiteral, TextForm.read]
    rcases (Parser.parseAll (TextForm.literal α) TextForm.parser (Bytes.ofString s)) with
      ⟨e | a, log⟩ <;> rfl
  | _ => rfl

end Scan

/-! ## Prefix lengths -/

namespace PrefixLength

variable {f : Family} {len : Nat}

def ofOctet (f : Family) (n : UInt8) : Except PrefixTooLong Nat :=
  if f.bits < n.toNat then .error ⟨n.toNat, f⟩ else .ok n.toNat

/-- A length that was read, which has to fit the family. -/
def ofParsed (f : Family) (len : Nat) : Except Fault Nat :=
  if len ≤ f.bits then .ok len else .error .outOfBounds

inductive Obtained (f : Family) : Nat → Prop
  | new {n : UInt8} {len : Nat} (h : ofOctet f n = .ok len) : Obtained f len
  | zero : Obtained f 0
  | max : Obtained f (UInt8.ofNat f.bits).toNat
  | read {len : Nat} (h : (scanUnchecked f).Gives .prefixLength len) : Obtained f len

/-- The host bits can be counted. -/
structure WellFormed (f : Family) (len : Nat) : Prop where
  len_le : len ≤ f.bits
  difference_eq : Bytes.difference f.bits len = .ok (f.bits - len)

theorem WellFormed.of_le (h : len ≤ f.bits) : WellFormed f len :=
  ⟨h, Bytes.difference_eq_ok h⟩

theorem ofOctet_eq (n : UInt8) : ofOctet f n = (ofNat f n.toNat).map PrefixLength.len := by
  rw [ofOctet, ofNat]
  by_cases h : n.toNat ≤ f.bits
  · rw [if_neg (Nat.not_lt.mpr h), dif_pos h]
    rfl
  · rw [if_pos (Nat.lt_of_not_le h), dif_neg h]
    rfl

theorem le_of_scanUnchecked {text : Bytes} {offset stop : Nat}
    (h : scanUnchecked f text offset = .ok (.ok len, stop)) : len ≤ f.bits := by
  obtain ⟨n, mid, hn, hlen⟩ := Scan.bind_eq_ok h
  cases hlen
  have hle := (Number.bounds_of_scan hn).2
  change n.toUInt8.toNat ≤ f.bits
  rw [toNat_toUInt8 hle]
  exact toNat_le_bits hle

theorem Obtained.wellFormed (h : Obtained f len) : WellFormed f len := by
  apply WellFormed.of_le
  cases h with
  | new h =>
    rw [ofOctet] at h
    split at h
    next => cases h
    next hle =>
      cases h
      exact Nat.not_lt.mp hle
  | zero => exact Nat.zero_le _
  | max =>
    rw [UInt8.toNat_ofNat_of_lt' (bits_lt_size f)]
  | read h =>
    obtain ⟨text, offset, stop, hscan⟩ := h.exists_offset
    exact le_of_scanUnchecked hscan

theorem Obtained.of_prefixLength (p : PrefixLength f) : Obtained f p.len := by
  have hoctet : (UInt8.ofNat p.len).toNat = p.len :=
    UInt8.toNat_ofNat_of_lt' (Nat.lt_of_le_of_lt p.len_le (bits_lt_size f))
  apply Obtained.new (n := UInt8.ofNat p.len)
  rw [ofOctet, hoctet, if_neg (Nat.not_lt.mpr p.len_le)]

theorem obtained_iff : Obtained f len ↔ ∃ p : PrefixLength f, p.len = len := by
  constructor
  · exact fun h => ⟨⟨len, h.wellFormed.len_le⟩, rfl⟩
  · rintro ⟨p, rfl⟩
    exact .of_prefixLength p

end PrefixLength

/-! ## Routes -/

namespace Route

variable {f : Family} {r : Bytes × Nat}

/-- Octets without their host bits. -/
def cleared (os : Bytes) (len : Nat) : Bytes × Nat :=
  (Octets.network os len, len)

def scanUnchecked (f : Family) : Scan (Bytes × Nat) :=
  .attempt do
    let os ← Address.scan f
    Scan.expect Byte.slash .route
    let len ← PrefixLength.scanUnchecked f
    return cleared os len

/-- Makes a route of what was read, which clears its host bits once more. -/
def scanMade (f : Family) : Scan (Bytes × Nat) :=
  (fun r => cleared r.1 r.2) <$> scanUnchecked f

/-- Checks the length that was read before it makes a route of it. -/
def scanAsserted (f : Family) : Scan (Bytes × Nat) := do
  let r ← scanUnchecked f
  let len ← Scan.checked (PrefixLength.ofParsed f r.2)
  return cleared r.1 len

inductive Obtained (f : Family) : Bytes × Nat → Prop
  | new {len : Nat} (a : Address f) (h : PrefixLength.Obtained f len) :
    Obtained f (cleared a.octets len)
  | zero : Obtained f (List.replicate f.width 0, 0)
  | read {r : Bytes × Nat} (h : (scanMade f).Gives .route r) : Obtained f r
  | shown {α : Type} {ops : List (RouteTable.Operation f α)} {s : Route f}
    (hstored : ∀ s ∈ ops.flatMap RouteTable.Operation.stores, Obtained f s.toPair)
    (h : RouteTable.Shows ops s) : Obtained f s.toPair

/-- Making a route of its own parts gives it back, and any octets that it can be made of lie in its
network. -/
structure WellFormed (f : Family) (r : Bytes × Nat) : Prop where
  length_eq : r.1.length = f.width
  prefixLength : PrefixLength.WellFormed f r.2
  network_eq : Octets.network r.1 r.2 = r.1
  broadcast_eq : ∀ os, cleared os r.2 = r → Octets.broadcast r.1 r.2 = Octets.broadcast os r.2
  cleared_eq : cleared r.1 r.2 = r

theorem WellFormed.cleared {len : Nat} (a : Address f) (h : PrefixLength.WellFormed f len) :
    WellFormed f (cleared a.octets len) := by
  have hnetwork := Octets.network_network a.octets len
  refine ⟨?_, h, hnetwork, ?_, ?_⟩
  · exact (Octets.length_network a.octets len).trans a.length_octets
  · intro os hos
    rw [← Octets.broadcast_network os, ← congrArg Prod.fst hos]
    rfl
  · rw [Route.cleared, Route.cleared, hnetwork]

theorem toPair_of (a : Address f) (p : PrefixLength f) :
    (of a p).toPair = cleared a.octets p.len :=
  rfl

theorem toPair_zero : (zero : Route f).toPair = (List.replicate f.width 0, 0) := by
  cases f <;> rfl

theorem cleared_toPair (r : Route f) : cleared r.toPair.1 r.toPair.2 = r.toPair := by
  have hnetwork := congrArg Address.octets r.network_eq
  exact Prod.ext hnetwork rfl

theorem parts_of_scanUnchecked {text : Bytes} {offset stop : Nat}
    (h : scanUnchecked f text offset = .ok (.ok r, stop)) :
    ∃ (a : Address f) (len : Nat), PrefixLength.Obtained f len ∧ r = cleared a.octets len := by
  obtain ⟨os, mid, haddress, hrest⟩ := Scan.bind_eq_ok (Scan.attempt_eq_ok h)
  obtain ⟨u, mid', -, hrest⟩ := Scan.bind_eq_ok hrest
  obtain ⟨len, mid'', hlen, hrest⟩ := Scan.bind_eq_ok hrest
  obtain ⟨a, rfl⟩ := Address.exists_octets_eq_of_scan haddress
  cases hrest
  exact ⟨a, len, .read (.atOffset hlen), rfl⟩

/-- Every route that can be obtained is some address of its family with the host bits cleared. -/
theorem Obtained.exists_parts (h : Obtained f r) :
    ∃ (a : Address f) (len : Nat), PrefixLength.Obtained f len ∧ r = cleared a.octets len := by
  induction h with
  | new a h => exact ⟨a, _, h, rfl⟩
  | zero => exact ⟨Address.zero, 0, .zero, toPair_zero.symm⟩
  | read h =>
    obtain ⟨text, offset, stop, hscan⟩ := h.exists_offset
    obtain ⟨r, mid, hr, hcleared⟩ := Scan.bind_eq_ok hscan
    cases hcleared
    obtain ⟨a, len, hlen, rfl⟩ := parts_of_scanUnchecked hr
    exact ⟨a, len, hlen, by simp only [cleared, Octets.network_network]⟩
  | shown _ hshown ih => exact ih _ hshown.mem_stores

theorem Obtained.wellFormed (h : Obtained f r) : WellFormed f r := by
  obtain ⟨a, len, hlen, rfl⟩ := h.exists_parts
  exact .cleared a hlen.wellFormed

theorem Obtained.prefixLength (h : Obtained f r) : PrefixLength.Obtained f r.2 := by
  obtain ⟨a, len, hlen, rfl⟩ := h.exists_parts
  exact hlen

theorem obtained_iff : Obtained f r ↔ ∃ s : Route f, s.toPair = r := by
  constructor
  · intro h
    obtain ⟨a, len, hlen, rfl⟩ := h.exists_parts
    exact ⟨of a ⟨len, hlen.wellFormed.len_le⟩, rfl⟩
  · rintro ⟨s, rfl⟩
    rw [← cleared_toPair s]
    exact .new s.address (.of_prefixLength s.prefixLength)

theorem scanAsserted_eq_scanMade : scanAsserted f = scanMade f := by
  apply Scan.bind_congr
  intro text offset r stop hr
  obtain ⟨a, len, hlen, rfl⟩ := parts_of_scanUnchecked hr
  change Scan.andThen (Scan.checked (PrefixLength.ofParsed f len)) _ text stop = _
  rw [PrefixLength.ofParsed, if_pos hlen.wellFormed.len_le]
  rfl

theorem scanMade_follows : (scanMade f).Follows (parser : Parser (Route f)) toPair := by
  have hcleared : (fun r => cleared r.1 r.2) ∘ toPair = (toPair : Route f → Bytes × Nat) :=
    funext cleared_toPair
  have hunchecked : scanUnchecked f = scan f := by
    rw [scanUnchecked, ← PrefixLength.scan_eq_scanUnchecked]
    rfl
  rw [scanMade, hunchecked, ← hcleared]
  exact scan_follows.map_left _

end Route

/-! ## Everything that is obtained -/

/-- However it was obtained, a prefix length leaves host bits to count, a route is a network with
its own ends, and the check on lengths that were read cannot fail. A network is what clearing the
host bits leaves. -/
theorem obtained_values_well_formed (f : Family) :
    (∀ len, PrefixLength.Obtained f len → PrefixLength.WellFormed f len) ∧
    (∀ r, Route.Obtained f r → Route.WellFormed f r ∧ PrefixLength.Obtained f r.2) ∧
    PrefixLength.scan f = PrefixLength.scanUnchecked f ∧
    Route.scanAsserted f = Route.scanMade f ∧
    -- The types hold what can be obtained, and make, read and keep it in the same way.
    (∀ len, PrefixLength.Obtained f len ↔ ∃ p : PrefixLength f, p.len = len) ∧
    (∀ r, Route.Obtained f r ↔ ∃ s : Route f, s.toPair = r) ∧
    (∀ n, PrefixLength.ofOctet f n = (PrefixLength.ofNat f n.toNat).map PrefixLength.len) ∧
    (PrefixLength.zero : PrefixLength f).len = 0 ∧
    (PrefixLength.max : PrefixLength f).len = (UInt8.ofNat f.bits).toNat ∧
    (PrefixLength.scanUnchecked f).Mirrors (PrefixLength f) PrefixLength.len ∧
    (∀ (a : Address f) p, (Route.of a p).toPair = Route.cleared a.octets p.len) ∧
    (Route.zero : Route f).toPair = (List.replicate f.width 0, 0) ∧
    (Route.scanMade f).Mirrors (Route f) Route.toPair ∧
    (∀ (α : Type) (ops : List (RouteTable.Operation f α)) r, RouteTable.Shows ops r →
      r ∈ ops.flatMap RouteTable.Operation.stores) ∧
    (∀ r : Route f, r.address.network r.prefixLength = r.address ∧
      Route.of r.address r.prefixLength = r ∧
      ∀ a p, Route.of a p = r → r.broadcast = a.broadcast p) ∧
    (∀ os len, (Octets.network os len).length = os.length ∧
      (len ≤ 8 * os.length → Octets.value (Octets.network os len) =
        Octets.value os - Octets.value os % 2 ^ (8 * os.length - len))) := by
  refine ⟨fun _ h => h.wellFormed, fun _ h => ⟨h.wellFormed, h.prefixLength⟩,
    PrefixLength.scan_eq_scanUnchecked, Route.scanAsserted_eq_scanMade,
    fun _ => PrefixLength.obtained_iff, fun _ => Route.obtained_iff, PrefixLength.ofOctet_eq, rfl,
    ?_, ?_, Route.toPair_of, Route.toPair_zero, ?_, fun _ _ _ h => h.mem_stores, ?_,
    fun os len => ⟨Octets.length_network os len, Octets.value_network_eq_sub⟩⟩
  · exact (UInt8.toNat_ofNat_of_lt' (PrefixLength.bits_lt_size f)).symm
  · rw [← PrefixLength.scan_eq_scanUnchecked]
    exact .of_follows PrefixLength.parser_orderly.forward PrefixLength.scan_follows
  · exact .of_follows Route.parser_orderly.forward Route.scanMade_follows
  · intro r
    refine ⟨r.network_eq, Route.of_address_prefixLength r, ?_⟩
    rintro a p rfl
    exact Address.ext_octets (Octets.broadcast_network a.octets p.len)

end NetLiteral
