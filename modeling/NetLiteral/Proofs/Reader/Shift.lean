import NetLiteral.Proofs.Parser.Shift
import NetLiteral.Proofs.Reader.Scan

/-!
# Readers of literals anywhere in a text

What a reader of a literal does depends only on the text after the cursor: with more text before it
the same bytes are read as the same value, or the same failure lies that much further on. The same
holds of the scans, which slice what they consume out of the whole text.
-/

open NetLiteral.Parser (Shifts)

namespace NetLiteral

variable {before : Bytes}

/-! ## Runs -/

theorem Address.parser_shifts {f : Family} :
    Shifts before (parser : Parser (Address f)) parser := by
  apply Shifts.attempt
  apply Shifts.position
  intro start
  apply (Shifts.takeWhile f.isMember).bind
  intro text
  split
  next => exact .fail _
  next =>
    split
    next a _ => exact .pure a
    next => exact .fail _

theorem Number.unsigned_shifts (literal : Literal) (lo hi : UInt32) :
    Shifts before (unsigned literal lo hi) (unsigned literal lo hi) := by
  apply Shifts.attempt
  apply Shifts.position
  intro start
  apply (Shifts.takeWhile Byte.isDigit).bind
  intro digits
  split
  next => exact .fail _
  next =>
    split
    next n _ =>
      split
      next => exact .pure _
      next => exact .fail _
    next => exact .fail _

theorem Number.port_shifts : Shifts before port port :=
  (unsigned_shifts .port 0 maxPort).map _

theorem PrefixLength.parser_shifts {f : Family} :
    Shifts before (parser : Parser (PrefixLength f)) parser :=
  (Number.unsigned_shifts .prefixLength 0 _).map _

theorem Label.parser_shifts : Shifts before parser parser := by
  apply Shifts.attempt
  apply Shifts.position
  intro start
  apply Shifts.peek.bind
  intro b
  cases b with
  | none => exact .fail _
  | some b =>
    dsimp only
    split
    next => exact .fail _
    next =>
      apply (Shifts.takeWhile Byte.isLabel).bind
      intro text
      split
      next => exact .fail _
      next =>
        split
        next => exact .pure _
        next => exact .fail _

/-! ## Names -/

namespace Hostname

theorem labelPart_shifts : Shifts before labelPart labelPart :=
  Label.parser_shifts.mapFailure fun _ _ => rfl

theorem furtherLabels_shifts (n : Nat) : Shifts before (furtherLabels n) (furtherLabels n) := by
  induction n with
  | zero => exact .pure []
  | succ n ih =>
    apply (Shifts.eat Byte.dot).bind
    intro dotted
    cases dotted with
    | false => exact .pure []
    | true => exact labelPart_shifts.bind fun label => ih.bind fun labels => .pure _

theorem labelsAfterDots_shifts : Shifts before labelsAfterDots labelsAfterDots :=
  fun c => furtherLabels_shifts c.unread.length c

theorem parser_shifts : Shifts before parser parser := by
  apply Shifts.attempt
  apply Shifts.position
  intro start
  apply labelPart_shifts.bind
  intro label
  apply labelsAfterDots_shifts.bind
  intro labels
  split
  next => exact .pure _
  next => exact .fail _

end Hostname

/-! ## Endpoints and routes -/

namespace Endpoint

variable {v : IpVersion}

theorem addressPart_shifts :
    Shifts before (addressPart : Parser (Address v.family)) addressPart := by
  cases v with
  | v4 => exact Address.parser_shifts
  | v6 =>
    apply (Shifts.expect _ _).bind
    intro _
    apply Address.parser_shifts.bind
    intro a
    exact (Shifts.expect _ _).bind fun _ => .pure a

theorem parser_shifts : Shifts before (parser : Parser (Endpoint v)) parser := by
  apply Shifts.position
  intro start
  apply Shifts.onFailure
  apply Shifts.attempt
  apply addressPart_shifts.bind
  intro a
  apply (Shifts.expect _ _).bind
  intro _
  exact Number.port_shifts.bind fun port => .pure _

end Endpoint

theorem Route.parser_shifts {f : Family} : Shifts before (parser : Parser (Route f)) parser := by
  apply Shifts.position
  intro start
  apply Shifts.onFailure
  apply Shifts.attempt
  apply Address.parser_shifts.bind
  intro a
  apply (Shifts.expect _ _).bind
  intro _
  exact PrefixLength.parser_shifts.bind fun p => .pure _

/-! ## Hosts -/

theorem IpAddress.parseWith_shifts (m : Families) :
    Shifts before (parseWith m) (parseWith m) := by
  have hshifts : ∀ p ∈ alternatives m, Shifts before p p :=
    forall_mem_alternatives (Address.parser_shifts.map v4) (Address.parser_shifts.map v6)
  apply Shifts.position
  intro start
  exact .choice (List.forall₂_same.mpr hshifts) ⟨.host, start, .empty⟩

theorem Host.parseWith_shifts (m : Families) : Shifts before (parseWith m) (parseWith m) := by
  apply Shifts.position
  intro start
  refine .choice ?_ ⟨.host, start, .empty⟩
  simp only [List.forall₂_same, List.mem_append, List.mem_ite_nil_right, List.mem_singleton]
  rintro p (⟨-, rfl⟩ | ⟨-, rfl⟩)
  · exact (IpAddress.parseWith_shifts m).map address
  · exact Hostname.parser_shifts.map name

/-! ## What stands before a literal -/

/-- How a scan ends if it begins `n` bytes further on. -/
def Scan.shiftEnd {β : Type} (n : Nat) : Except Failure β × Nat → Except Failure β × Nat
  | (result, stop) => (result.mapError (Failure.shift n), n + stop)

theorem Scan.Follows.eq_shiftEnd {α β : Type} {p : Parser α} {raw : α → β} {q : Scan β}
    (hq : q.Follows p raw) (hp : ∀ before, Shifts before p p) {c : Cursor} (hc : c.OnBoundary)
    (before : String) :
    q (Bytes.ofString before ++ c.input) ((Bytes.ofString before).length + c.position) =
      shiftEnd (Bytes.ofString before).length <$> q c.input c.position := by
  have hlater := hq _ (hc.preceded before)
  rw [FollowsAt, hp, Cursor.input_preceded, Cursor.position_preceded] at hlater
  rw [hlater, hq c hc]
  rcases p.eval c with ⟨e | a, d⟩
  · simp [shiftEnd, Except.mapError, Except.map]
  · simp [shiftEnd, Except.mapError, Except.map]

/-- What holds of a reader, and of its scan, with more text before it. -/
structure Relocatable {α β : Type} (p : Parser α) (raw : α → β) (q : Scan β) : Prop where
  /-- The value or the failure is the same, but for the offset of the failure. -/
  parser : ∀ before, Shifts before p p
  /-- The bytes that the value was read from are the same too. -/
  recognize : ∀ before, Shifts before p.recognize p.recognize
  scan : ∀ before s : String, q (Bytes.ofString (before ++ s)) (Bytes.ofString before).length =
    Scan.shiftEnd (Bytes.ofString before).length <$> q (Bytes.ofString s) 0

theorem Relocatable.of_shifts {α β : Type} {p : Parser α} {raw : α → β} {q : Scan β}
    (hp : ∀ before, Shifts before p p) (hq : q.Follows p raw) : Relocatable p raw q := by
  refine ⟨hp, fun before => (hp before).recognize, ?_⟩
  intro before s
  rw [Bytes.ofString_append]
  exact hq.eq_shiftEnd hp (Cursor.ofString_onBoundary s) before

/-- No reader of a literal depends on what stands before it in the text. -/
theorem readers_relocatable :
    (∀ f, Relocatable (Address.parser : Parser (Address f)) Address.octets (Address.scan f)) ∧
    (∀ f, Relocatable (PrefixLength.parser : Parser (PrefixLength f)) PrefixLength.len
      (PrefixLength.scan f)) ∧
    Relocatable Number.port id Number.scanPort ∧
    (∀ literal lo hi, Relocatable (Number.unsigned literal lo hi) Subtype.val
      (Number.scan literal lo hi)) ∧
    Relocatable Label.parser Label.bytes Label.scan ∧
    Relocatable Hostname.parser Hostname.write Hostname.scan ∧
    (∀ v, Relocatable (Endpoint.parser : Parser (Endpoint v)) Endpoint.toPair (Endpoint.scan v)) ∧
    (∀ f, Relocatable (Route.parser : Parser (Route f)) Route.toPair (Route.scan f)) ∧
    (∀ m, Relocatable (IpAddress.parseWith m) IpAddress.octets (IpAddress.scan m)) ∧
    ∀ m, Relocatable (Host.parseWith m) Host.toSum (Host.scan m) := by
  refine ⟨?_, ?_, ?_, ?_, ?_, ?_, ?_, ?_, ?_, ?_⟩
  · exact fun f => .of_shifts (fun _ => Address.parser_shifts) Address.scan_follows
  · exact fun f => .of_shifts (fun _ => PrefixLength.parser_shifts) PrefixLength.scan_follows
  · exact .of_shifts (fun _ => Number.port_shifts) Number.scanPort_follows
  · exact fun literal lo hi =>
      .of_shifts (fun _ => Number.unsigned_shifts literal lo hi) (Number.scan_follows literal lo hi)
  · exact .of_shifts (fun _ => Label.parser_shifts) Label.scan_follows
  · exact .of_shifts (fun _ => Hostname.parser_shifts) Hostname.scan_follows
  · exact fun v => .of_shifts (fun _ => Endpoint.parser_shifts) Endpoint.scan_follows
  · exact fun f => .of_shifts (fun _ => Route.parser_shifts) Route.scan_follows
  · exact fun m => .of_shifts (fun _ => IpAddress.parseWith_shifts m) IpAddress.scan_follows
  · exact fun m => .of_shifts (fun _ => Host.parseWith_shifts m) Host.scan_follows

end NetLiteral
