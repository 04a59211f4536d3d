import NetLiteral.Proofs.Address.Ipv6.InPlace
import NetLiteral.Proofs.Parser.Scan
import NetLiteral.Proofs.Reader.Progress

/-!
# Readers of literals as scans

Every reader of a literal has a scan that slices the text, subtracts the byte of zero from digits,
narrows bounded numbers and copies the groups of IPv6 addresses, each access checked. The scan
follows the reader: no check ever fails between two characters of a text. With the progress of the
readers, this says what a caller sees of any of them.
-/

namespace NetLiteral

open Scan (Follows FollowsAt)

/-! ## Addresses -/

namespace Address

variable {f : Family}

/-- Reads octets from the whole of a text. Only the reader of IPv6 addresses slices and copies. -/
def octetsInPlace (f : Family) (text : Bytes) : Except Fault (Option Bytes) :=
  match f with
  | .ipv6 => Ipv6.readInPlace text
  | f => .ok ((read? f text).map octets)

def scan (f : Family) : Scan Bytes :=
  .attempt do
    let start ← Scan.position
    let text ← Scan.takeWhile f.isMember
    if text.isEmpty then Scan.fail ⟨f.literal, start, .empty⟩
    else
      match ← Scan.checked (octetsInPlace f text) with
      | some os => return os
      | none => Scan.fail ⟨f.literal, start, .malformed⟩

/-- Reading octets from the whole of a text is stopped nowhere. -/
theorem octetsInPlace_ofString (f : Family) (s : String) :
    octetsInPlace f (Bytes.ofString s) = .ok ((read? f (Bytes.ofString s)).map octets) := by
  cases f with
  | ipv6 => exact Ipv6.readInPlace_ofString s
  | ipv4 => rfl
  | ethernet => rfl

theorem octetsInPlace_eq {text : Bytes} (h : ∀ b ∈ text, Bytes.isAscii b = true) :
    octetsInPlace f text = .ok ((read? f text).map octets) := by
  have hread := octetsInPlace_ofString f (Bytes.toText text)
  rwa [Bytes.ofString_toText h] at hread

theorem scan_stopsInside (f : Family) : (scan f).StopsInside :=
  .attempt (.position fun _ => (Scan.StopsInside.takeWhile f.isMember).bind _)

theorem scan_follows : (scan f).Follows (parser : Parser (Address f)) octets := by
  apply Follows.attempt
  apply Follows.position
  intro start
  apply Follows.bind (.takeWhile f.isMember) (Follows.takeWhile f.isMember)
  intro c d text heval
  cases heval
  rw [id_eq]
  split
  next => exact .fail _
  next =>
    apply Follows.checked (octetsInPlace_eq fun b => Cursor.isAscii_of_mem_run)
    cases read? f (c.run f.isMember) with
    | none => exact .fail _
    | some a => exact .pure a rfl

/-- Whatever octets are read, from any offset, are those of an address. -/
theorem exists_octets_eq_of_scan {text os : Bytes} {offset stop : Nat}
    (h : scan f text offset = .ok (.ok os, stop)) : ∃ a : Address f, a.octets = os := by
  obtain ⟨start, mid, -, hrest⟩ := Scan.bind_eq_ok (Scan.attempt_eq_ok h)
  obtain ⟨run, mid', hrun, hrest⟩ := Scan.bind_eq_ok hrest
  split at hrest
  next => cases hrest
  next =>
    obtain ⟨read, mid'', hread, hrest⟩ := Scan.bind_eq_ok hrest
    have hoctets := Scan.checked_eq_ok hread
    rw [octetsInPlace_eq (Scan.isAscii_of_takeWhile hrun)] at hoctets
    cases hoctets
    cases ha : read? f run with
    | none =>
      rw [ha] at hrest
      cases hrest
    | some a =>
      rw [ha] at hrest
      cases hrest
      exact ⟨a, rfl⟩

end Address

/-! ## Numbers -/

namespace Number

/-- Accumulates digits in 32 bits, each of them the difference of its byte to that of zero. -/
def accumulate (n : UInt32) : Bytes → Except Fault (Option UInt32)
  | [] => .ok (some n)
  | b :: bs => do
    let d ← Bytes.difference b.toNat 0x30
    if 10 * n.toNat + d < UInt32.size then accumulate (UInt32.ofNat (10 * n.toNat + d)) bs
    else return none

def scan (literal : Literal) (lo hi : UInt32) : Scan UInt32 :=
  .attempt do
    let start ← Scan.position
    let digits ← Scan.takeWhile Byte.isDigit
    if digits.isEmpty then Scan.fail ⟨literal, start, .empty⟩
    else
      match ← Scan.checked (accumulate 0 digits) with
      | some n =>
        if lo ≤ n ∧ n ≤ hi then return n
        else Scan.fail ⟨literal, start, .outOfRange⟩
      | none => Scan.fail ⟨literal, start, .outOfRange⟩

def scanPort : Scan UInt16 :=
  UInt32.toUInt16 <$> scan .port 0 maxPort

theorem accumulate_eq {digits : Bytes} (h : ∀ b ∈ digits, Byte.isDigit b = true) (n : UInt32) :
    accumulate n digits = .ok (digits.foldlM Numeral.push32? n) := by
  induction digits generalizing n with
  | nil => rfl
  | cons b bs ih =>
    obtain ⟨hb, hbs⟩ := List.forall_mem_cons.mp h
    have hle : 0x30 ≤ b.toNat := by
      rw [Byte.isDigit, Bool.and_eq_true, decide_eq_true_eq, UInt8.le_iff_toNat_le] at hb
      exact hb.1
    have hdigit : Numeral.digitValue b = b.toNat - 0x30 := if_pos hb
    rw [accumulate, Bytes.difference_eq_ok hle, Bytes.ok_bind, List.foldlM_cons, Numeral.push32?,
      ← hdigit]
    split
    next hlt => rw [ih hbs]; simp
    next hlt => simp; rfl

theorem scan_follows (literal : Literal) (lo hi : UInt32) :
    (scan literal lo hi).Follows (unsigned literal lo hi) Subtype.val := by
  apply Follows.attempt
  apply Follows.position
  intro start
  apply Follows.bind (.takeWhile Byte.isDigit) (Follows.takeWhile Byte.isDigit)
  intro c d digits heval
  cases heval
  rw [id_eq]
  split
  next => exact .fail _
  next =>
    apply Follows.checked (accumulate_eq (fun b => Cursor.isMember_of_mem_run) 0)
    rw [← Numeral.decimal32?]
    cases Numeral.decimal32? (c.run Byte.isDigit) with
    | none => exact .fail _
    | some n =>
      dsimp only
      split
      next => exact .pure _ rfl
      next => exact .fail _

/-- Bounds hold of whatever is read, from any offset. -/
theorem bounds_of_scan {literal : Literal} {lo hi n : UInt32} {text : Bytes} {offset stop : Nat}
    (h : scan literal lo hi text offset = .ok (.ok n, stop)) : lo ≤ n ∧ n ≤ hi := by
  obtain ⟨start, mid, -, hrest⟩ := Scan.bind_eq_ok (Scan.attempt_eq_ok h)
  obtain ⟨digits, mid', -, hrest⟩ := Scan.bind_eq_ok hrest
  split at hrest
  next => cases hrest
  next =>
    obtain ⟨read, mid'', -, hrest⟩ := Scan.bind_eq_ok hrest
    cases read with
    | none => cases hrest
    | some m =>
      dsimp only at hrest
      split at hrest
      next hbounds =>
        cases hrest
        exact hbounds
      next => cases hrest

theorem scanPort_follows : scanPort.Follows port id :=
  Follows.map_right ((scan_follows .port 0 maxPort).map_left UInt32.toUInt16)

theorem scan_stopsInside (literal : Literal) (lo hi : UInt32) :
    (scan literal lo hi).StopsInside :=
  .attempt (.position fun _ => (Scan.StopsInside.takeWhile Byte.isDigit).bind _)

end Number

namespace PrefixLength

variable {f : Family}

/-- Narrows a number to an octet, which has to be a prefix length. -/
def narrow (f : Family) (n : UInt32) : Except Fault Nat :=
  if n.toUInt8.toNat ≤ f.bits then .ok n.toUInt8.toNat else .error .outOfBounds

def scan (f : Family) : Scan Nat := do
  let n ← Number.scan .prefixLength 0 (UInt32.ofNat f.bits)
  Scan.checked (narrow f n)

/-- Narrows the number that was read without looking at it. -/
def scanUnchecked (f : Family) : Scan Nat :=
  (fun n => n.toUInt8.toNat) <$> Number.scan .prefixLength 0 (UInt32.ofNat f.bits)

theorem bits_lt_size (f : Family) : f.bits < UInt8.size := by
  cases f <;> decide

theorem toNat_toUInt8 {n : UInt32} (h : n ≤ UInt32.ofNat f.bits) :
    n.toUInt8.toNat = n.toNat := by
  rw [UInt32.toNat_toUInt8]
  exact Nat.mod_eq_of_lt (Nat.lt_of_le_of_lt (toNat_le_bits h) (bits_lt_size f))

theorem narrow_eq {n : UInt32} (h : n ≤ UInt32.ofNat f.bits) : narrow f n = .ok n.toNat := by
  rw [narrow, toNat_toUInt8 h, if_pos (toNat_le_bits h)]

theorem scan_follows : (scan f).Follows (parser : Parser (PrefixLength f)) len := by
  apply Follows.bind (Number.unsigned_orderly _ _ _).forward (Number.scan_follows _ _ _)
  intro c d n _
  exact .checked_pure (narrow_eq n.property.2)

/-- The number that was read has been compared with the width, so the check never fails. -/
theorem scan_eq_scanUnchecked : scan f = scanUnchecked f := by
  apply Scan.bind_congr
  intro text offset n stop hn
  have hle := (Number.bounds_of_scan hn).2
  change Scan.checked (narrow f n) text stop = Scan.succeed n.toUInt8.toNat text stop
  rw [narrow_eq hle, toNat_toUInt8 hle]
  rfl

end PrefixLength

/-! ## Names -/

namespace Label

def scan : Scan Bytes :=
  .attempt do
    let start ← Scan.position
    match ← Scan.peek with
    | none => Scan.fail ⟨.label, start, .empty⟩
    | some b =>
      if !Byte.isLabelRegular b then
        Scan.fail ⟨.label, start, if Byte.isLabel b then .malformed else .empty⟩
      else
        let text ← Scan.takeWhile Byte.isLabel
        if maxLength < text.length then Scan.fail ⟨.label, start, .tooLong⟩
        else if isValid text then return text
        else Scan.fail ⟨.label, start, .malformed⟩

theorem scan_follows : scan.Follows parser bytes := by
  apply Follows.attempt
  apply Follows.position
  intro start
  apply Follows.bind .peek Follows.peek
  intro c d b _
  cases b with
  | none => exact .fail _
  | some b =>
    dsimp only [id_eq]
    split
    next => exact .fail _
    next =>
      apply Follows.bind (.takeWhile Byte.isLabel) (Follows.takeWhile Byte.isLabel)
      intro c d text _
      rw [id_eq]
      split
      next => exact .fail _
      next =>
        split
        next => exact .pure _ rfl
        next => exact .fail _

end Label

namespace Hostname

def scanPart : Scan Bytes :=
  Label.scan.mapFailure fun e => { e with literal := .hostname }

def scanFurther : Nat → Scan Unit
  | 0 => return ()
  | n + 1 => do
    if ← Scan.eat Byte.dot then
      let _ ← scanPart
      scanFurther n
    else return ()

def scanAfterDots : Scan Unit :=
  fun text offset => scanFurther (text.length - offset) text offset

/-- The text of a name is sliced out of what was passed over. -/
def scan : Scan Bytes :=
  .attempt do
    let start ← Scan.position
    let _ ← scanPart
    scanAfterDots
    let text ← Scan.since start
    if text.length ≤ maxLength then return text
    else Scan.fail ⟨.hostname, start, .tooLong⟩

theorem scanPart_follows : scanPart.Follows labelPart Label.bytes :=
  Label.scan_follows.mapFailure _

theorem scanFurther_follows (n : Nat) :
    (scanFurther n).Follows (furtherLabels n) fun _ => () := by
  induction n with
  | zero => exact .pure [] rfl
  | succ n ih =>
    apply Follows.bind (.eat rfl) (Follows.eat Byte.dot)
    intro c d dotted _
    cases dotted with
    | false => exact .pure [] rfl
    | true =>
      apply Follows.bind labelPart_orderly.forward scanPart_follows
      intro c d label _
      exact Follows.map_right (g := (label :: ·)) ih

theorem scanAfterDots_follows : scanAfterDots.Follows labelsAfterDots fun _ => () := by
  intro c hc
  have hfuel : c.input.length - c.position = c.unread.length := by
    rw [Cursor.input, Cursor.position, List.length_append, Nat.add_sub_cancel_left]
  rw [FollowsAt, scanAfterDots, hfuel]
  exact scanFurther_follows c.unread.length c hc

theorem scan_follows : scan.Follows parser write := by
  apply Follows.attempt
  intro c hc
  apply FollowsAt.position
  apply FollowsAt.bind labelPart_orderly.forward (scanPart_follows c hc)
  intro label d hlabel
  have hreach := labelPart_orderly.forward.reaches_of_eval hlabel
  apply FollowsAt.bind labelsAfterDots_forward (scanAfterDots_follows d (hreach.onBoundary hc))
  intro labels d' hlabels
  have hreach' := hreach.trans (labelsAfterDots_forward.reaches_of_eval hlabels)
  have hsince : d'.since c.position = join (label :: labels) := by
    rw [join_cons]
    exact ((labelPart_passes hlabel).trans (furtherLabels_passes hlabels)).since_eq
  apply FollowsAt.since hreach' hc
  rw [hsince]
  split
  next => exact rfl
  next => exact rfl

end Hostname

/-! ## Endpoints and routes -/

namespace Endpoint

variable {v : IpVersion}

def scanAddress (v : IpVersion) : Scan Bytes :=
  if v.isBracketed then do
    Scan.expect Byte.openBracket .endpoint
    let os ← Address.scan v.family
    Scan.expect Byte.closeBracket .endpoint
    return os
  else Address.scan v.family

def scan (v : IpVersion) : Scan (Bytes × UInt16) :=
  .attempt do
    let os ← scanAddress v
    Scan.expect Byte.colon .endpoint
    let port ← Number.scanPort
    return (os, port)

/-- An endpoint as octets and a port. -/
def toPair (e : Endpoint v) : Bytes × UInt16 :=
  (e.address.octets, e.port)

theorem scanAddress_follows :
    (scanAddress v).Follows (addressPart : Parser (Address v.family)) Address.octets := by
  cases v with
  | v4 => exact Address.scan_follows
  | v6 =>
    apply Follows.bind (.expect rfl _) (.expect _ _)
    intro _ _ _ _
    apply Follows.bind Address.parser_orderly.forward Address.scan_follows
    intro _ _ a _
    apply Follows.bind (.expect rfl _) (.expect _ _)
    intro _ _ _ _
    exact .pure a rfl

theorem scan_follows : (scan v).Follows (parser : Parser (Endpoint v)) toPair := by
  apply Follows.position_right
  intro start
  apply Follows.onFailure
  apply Follows.attempt
  apply Follows.bind addressPart_forward scanAddress_follows
  intro _ _ a _
  apply Follows.bind (.expect rfl _) (.expect _ _)
  intro _ _ _ _
  apply Follows.bind Number.port_orderly.forward Number.scanPort_follows
  intro _ _ port _
  exact .pure (Endpoint.mk a port) rfl

end Endpoint

namespace Route

variable {f : Family}

def scan (f : Family) : Scan (Bytes × Nat) :=
  .attempt do
    let os ← Address.scan f
    Scan.expect Byte.slash .route
    let len ← PrefixLength.scan f
    return (Octets.network os len, len)

/-- A route as octets and the length of its prefix. -/
def toPair (r : Route f) : Bytes × Nat :=
  (r.address.octets, r.prefixLength.len)

theorem scan_follows : (scan f).Follows (parser : Parser (Route f)) toPair := by
  apply Follows.position_right
  intro start
  apply Follows.onFailure
  apply Follows.attempt
  apply Follows.bind Address.parser_orderly.forward Address.scan_follows
  intro _ _ a _
  apply Follows.bind (.expect rfl _) (.expect _ _)
  intro _ _ _ _
  apply Follows.bind PrefixLength.parser_orderly.forward PrefixLength.scan_follows
  intro _ _ p _
  exact .pure (of a p) rfl

end Route

/-! ## Hosts -/

namespace IpAddress

variable {m : Families}

def octets : IpAddress → Bytes
  | v4 a => a.octets
  | v6 a => a.octets

def scan (m : Families) : Scan Bytes := do
  let start ← Scan.position
  let asV4 := if m.v4 then [Address.scan .ipv4] else []
  let asV6 := if m.v6 then [Address.scan .ipv6] else []
  Scan.choice ⟨.host, start, .empty⟩ (asV4 ++ asV6)

theorem scan_follows : (scan m).Follows (parseWith m) octets := by
  have h4 : (Address.scan .ipv4).Follows (v4 <$> Address.parser) octets :=
    .map_right Address.scan_follows
  have h6 : (Address.scan .ipv6).Follows (v6 <$> Address.parser) octets :=
    .map_right Address.scan_follows
  have hp4 := (Address.parser_orderly.map v4).forward
  have hp6 := (Address.parser_orderly.map v6).forward
  apply Follows.position
  intro start
  dsimp only
  cases m.v4 <;> cases m.v6
  · exact .choice_nil _
  · exact .choice_cons hp6 h6 Follows.choice_nil _
  · exact .choice_cons hp4 h4 Follows.choice_nil _
  · exact .choice_cons hp4 h4 (Follows.choice_cons hp6 h6 Follows.choice_nil) _

end IpAddress

namespace Host

variable {m : Families}

/-- A host as the octets of its address or the text of its name. -/
def toSum : Host → Bytes ⊕ Bytes
  | address a => .inl a.octets
  | name h => .inr h.write

def scan (m : Families) : Scan (Bytes ⊕ Bytes) := do
  let start ← Scan.position
  let byAddress := if m.v4 || m.v6 then [Sum.inl <$> IpAddress.scan m] else []
  let byName := if m.name then [Sum.inr <$> Hostname.scan] else []
  Scan.choice ⟨.host, start, .empty⟩ (byAddress ++ byName)

theorem scan_follows : (scan m).Follows (parseWith m) toSum := by
  have haddress : (Sum.inl <$> IpAddress.scan m).Follows (address <$> IpAddress.parseWith m) toSum :=
    .map_right (IpAddress.scan_follows.map_left Sum.inl)
  have hname : (Sum.inr <$> Hostname.scan).Follows (name <$> Hostname.parser) toSum :=
    .map_right (Hostname.scan_follows.map_left Sum.inr)
  have hp := ((IpAddress.parseWith_orderly m).map address).forward
  have hp' := (Hostname.parser_orderly.map name).forward
  apply Follows.position
  intro start
  dsimp only
  cases m.v4 || m.v6 <;> cases m.name
  · exact .choice_nil _
  · exact .choice_cons hp' hname Follows.choice_nil _
  · exact .choice_cons hp haddress Follows.choice_nil _
  · exact .choice_cons hp haddress (Follows.choice_cons hp' hname Follows.choice_nil) _

end Host

/-! ## What a caller sees -/

/-- What holds of a reader, and of its scan, at every place between two characters of a text. -/
structure Tidy {α β : Type} (p : Parser α) (raw : α → β) (q : Scan β) : Prop where
  /-- A failure moves nothing, and is reported between two characters further on in the text. -/
  failure : ∀ c : Cursor, c.OnBoundary → ∀ e c', p.eval c = (.error e, c') →
    c' = c ∧ c.position ≤ e.offset ∧ e.offset ≤ c.input.length ∧
      ∃ d : Cursor, d.OnBoundary ∧ d.input = c.input ∧ d.position = e.offset
  /-- A success consumes ASCII bytes, at least one, and ends between two characters. -/
  success : ∀ c : Cursor, c.OnBoundary → ∀ a c', p.eval c = (.ok a, c') →
    c.position < c'.position ∧ c'.input = c.input ∧ c'.OnBoundary ∧
      ∀ b ∈ c'.since c.position, Bytes.isAscii b = true
  /-- No access to the text is stopped by a fault. -/
  faultless : ∀ c : Cursor, c.OnBoundary →
    q c.input c.position = .ok ((p.eval c).1.map raw, (p.eval c).2.position)

theorem Tidy.of_orderly {α β : Type} {p : Parser α} {raw : α → β} {q : Scan β} (hp : p.Orderly)
    (hq : q.Follows p raw) : Tidy p raw q := by
  refine ⟨?_, ?_, hq⟩
  · intro c hc e c' heval
    obtain ⟨d, hreach, hoffset⟩ := hp.failure heval
    refine ⟨hp.restores heval, ?_, ?_, d, hreach.onBoundary hc, hreach.input_eq, hoffset⟩
    · rw [← hoffset]
      exact hreach.position_le
    · rw [← hoffset, ← hreach.input_eq]
      exact d.position_le_length
  · intro c hc a c' heval
    obtain ⟨hreach, hlt⟩ := hp.success heval
    exact ⟨hlt, hreach.input_eq, hreach.onBoundary hc, hreach.isAscii_of_mem_since⟩

/-- No reader of a literal leaves a trace when it fails, each makes progress when it succeeds, and
none is stopped by a fault. -/
theorem readers_tidy :
    (∀ f, Tidy (Address.parser : Parser (Address f)) Address.octets (Address.scan f)) ∧
    (∀ v, Tidy (Endpoint.parser : Parser (Endpoint v)) Endpoint.toPair (Endpoint.scan v)) ∧
    (∀ f, Tidy (Route.parser : Parser (Route f)) Route.toPair (Route.scan f)) ∧
    (∀ f, Tidy (PrefixLength.parser : Parser (PrefixLength f)) PrefixLength.len
      (PrefixLength.scan f)) ∧
    Tidy Label.parser Label.bytes Label.scan ∧
    Tidy Hostname.parser Hostname.write Hostname.scan ∧
    Tidy Number.port id Number.scanPort ∧
    (∀ literal lo hi, Tidy (Number.unsigned literal lo hi) Subtype.val
      (Number.scan literal lo hi)) ∧
    (∀ m, Tidy (IpAddress.parseWith m) IpAddress.octets (IpAddress.scan m)) ∧
    (∀ m, Tidy (Host.parseWith m) Host.toSum (Host.scan m)) := by
  refine ⟨?_, ?_, ?_, ?_, ?_, ?_, ?_, ?_, ?_, ?_⟩
  · exact fun f => .of_orderly Address.parser_orderly Address.scan_follows
  · exact fun v => .of_orderly Endpoint.parser_orderly Endpoint.scan_follows
  · exact fun f => .of_orderly Route.parser_orderly Route.scan_follows
  · exact fun f => .of_orderly PrefixLength.parser_orderly PrefixLength.scan_follows
  · exact .of_orderly Label.parser_orderly Label.scan_follows
  · exact .of_orderly Hostname.parser_orderly Hostname.scan_follows
  · exact .of_orderly Number.port_orderly Number.scanPort_follows
  · exact fun literal lo hi =>
      .of_orderly (Number.unsigned_orderly literal lo hi) (Number.scan_follows literal lo hi)
  · exact fun m => .of_orderly (IpAddress.parseWith_orderly m) IpAddress.scan_follows
  · exact fun m => .of_orderly (Host.parseWith_orderly m) Host.scan_follows

end NetLiteral
