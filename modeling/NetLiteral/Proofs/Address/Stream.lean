import Mathlib.Data.List.TakeWhile
import NetLiteral.Proofs.Reader.Scan

/-!
# Addresses in a stream

At a place between two characters of a text, the longest run of the bytes of a family is converted,
and nothing else: all of it is consumed if it is an address, and none of it otherwise. Inside a
character nothing can be sliced out of the text, and reading is stopped. A whole text is read as an
address exactly if it is one, so no address has a byte outside its family.
-/

namespace NetLiteral.Address

variable {f : Family}

/-- Between two characters, reading at an offset is converting the run that stands there. -/
theorem scan_eq_of_isBoundary {s : String} {offset : Nat}
    (h : Bytes.isBoundary (Bytes.ofString s) offset = true) :
    scan f (Bytes.ofString s) offset =
      let run := Bytes.runAt f.isMember (Bytes.ofString s) offset
      match read? f run with
      | some a => .ok (.ok a.octets, offset + run.length)
      | none =>
        .ok (.error ⟨f.literal, offset, if run.isEmpty then .empty else .malformed⟩, offset) := by
  have hposition := Cursor.position_place (Bytes.le_length_of_isBoundary h)
  have hascii : ∀ b, f.isMember b = true → Bytes.isAscii b = true :=
    fun _ => Byte.isAscii_of_isMember
  have hrun := Cursor.run_place hascii (Bytes.ofString s) offset
  rw [scan_follows.eq_ok_of_isBoundary h, parser_eval, hrun]
  dsimp only
  cases read? f (Bytes.runAt f.isMember (Bytes.ofString s) offset) with
  | none =>
    dsimp only
    rw [hposition]
    rfl
  | some a =>
    have hpass := (Cursor.place (Bytes.ofString s) offset).passes_advance_run f.isMember
    rw [hrun] at hpass
    dsimp only
    rw [hpass.position_eq, hposition]
    rfl

theorem scan_eq_ok_iff {s : String} {offset stop : Nat} {os : Bytes}
    (h : Bytes.isBoundary (Bytes.ofString s) offset = true) :
    let run := Bytes.runAt f.isMember (Bytes.ofString s) offset
    scan f (Bytes.ofString s) offset = .ok (.ok os, stop) ↔
      (read? f run).map octets = some os ∧ stop = offset + run.length := by
  rw [scan_eq_of_isBoundary h]
  dsimp only
  cases read? f (Bytes.runAt f.isMember (Bytes.ofString s) offset) with
  | none => simp
  | some a => simp [eq_comm]

theorem scan_eq_error_iff {s : String} {offset stop : Nat} {e : Failure}
    (h : Bytes.isBoundary (Bytes.ofString s) offset = true) :
    let run := Bytes.runAt f.isMember (Bytes.ofString s) offset
    scan f (Bytes.ofString s) offset = .ok (.error e, stop) ↔
      read? f run = none ∧ stop = offset ∧
        e = ⟨f.literal, offset, if run = [] then .empty else .malformed⟩ := by
  rw [scan_eq_of_isBoundary h]
  dsimp only
  cases read? f (Bytes.runAt f.isMember (Bytes.ofString s) offset) with
  | none =>
    simp only [Except.ok.injEq, Prod.mk.injEq, Except.error.injEq, List.isEmpty_iff, true_and]
    constructor
    · rintro ⟨rfl, rfl⟩
      exact ⟨rfl, rfl⟩
    · rintro ⟨rfl, rfl⟩
      exact ⟨rfl, rfl⟩
  | some a => simp

/-- What is read as an address is a run of the bytes of its family. -/
theorem runAt_of_read? {text : Bytes} {a : Address f} (h : read? f text = some a) :
    Bytes.runAt f.isMember text 0 = text :=
  List.takeWhile_eq_self_iff.mpr (isMember_of_read? h)

/-- Reading at a place between two characters of a text converts the longest run of the family's
bytes there and consumes all of it, or fails there: the run is empty or it is no address. Inside a
character it is stopped. The parser does the same, and a whole text is read as an address exactly if
it is converted to one. Converting a whole text is stopped nowhere, and neither is reading it. -/
theorem streamed_as_converted :
    (∀ f (s : String) offset, Bytes.isBoundary (Bytes.ofString s) offset = true →
      let run := Bytes.runAt f.isMember (Bytes.ofString s) offset
      (∀ os stop, scan f (Bytes.ofString s) offset = .ok (.ok os, stop) ↔
        (read? f run).map octets = some os ∧ stop = offset + run.length) ∧
      ∀ e stop, scan f (Bytes.ofString s) offset = .ok (.error e, stop) ↔
        read? f run = none ∧ stop = offset ∧
          e = ⟨f.literal, offset, if run = [] then .empty else .malformed⟩) ∧
    (∀ f, (scan f).StopsInside) ∧
    (∀ f, (scan f).Follows (parser : Parser (Address f)) octets) ∧
    (∀ f s (a : Address f), (TextForm.read (Address f) s).value = .ok a ↔
      read? f (Bytes.ofString s) = some a) ∧
    (∀ f s, octetsInPlace f (Bytes.ofString s) = .ok ((read? f (Bytes.ofString s)).map octets) ∧
      (scan f).parseAll f.literal (Bytes.ofString s) =
        .ok ((TextForm.read (Address f) s).value.map octets)) ∧
    ∀ f text (a : Address f), read? f text = some a → Bytes.runAt f.isMember text 0 = text := by
  refine ⟨?_, scan_stopsInside, fun f => scan_follows, fun f s a => read_eq_ok_iff, ?_,
    fun f text a => runAt_of_read?⟩
  · intro f s offset h
    exact ⟨fun os stop => scan_eq_ok_iff h, fun e stop => scan_eq_error_iff h⟩
  · intro f s
    exact ⟨octetsInPlace_ofString f s, scan_follows.parseAll parser_orderly.forward f.literal s⟩

/-- An address behind a character of two bytes, and before a bracket. -/
theorem streamed_as_converted_behind_character :
    Bytes.isBoundary (Bytes.ofString "é::1]") 2 = true ∧
    scan .ipv6 (Bytes.ofString "é::1]") 2 = .ok (.ok (List.replicate 15 0 ++ [1]), 5) ∧
    Bytes.isBoundary (Bytes.ofString "é::1]") 1 = false ∧
    scan .ipv6 (Bytes.ofString "é::1]") 1 = .error .insideCharacter := by
  have hboundary : Bytes.isBoundary (Bytes.ofString "é::1]") 2 = true := rfl
  have hinside : Bytes.isBoundary (Bytes.ofString "é::1]") 1 = false := rfl
  have hread := (streamed_as_converted.1 .ipv6 "é::1]" 2 hboundary).1
  refine ⟨hboundary, (hread _ 5).mpr ⟨by decide, by decide⟩, hinside, ?_⟩
  exact streamed_as_converted.2.1 .ipv6 _ 1 (by decide) hinside

end NetLiteral.Address
