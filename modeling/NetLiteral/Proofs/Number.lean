import NetLiteral.PrefixLength
import NetLiteral.Proofs.Numeral
import NetLiteral.Proofs.Parser.Progress

/-!
# Numbers read at a cursor

A number in range is read from any run of digits that denotes it, up to the first byte that is no
digit, and from nothing else. Ports and prefix lengths are such numbers.
-/

namespace NetLiteral

open Numeral (Denotes)

theorem Numeral.Denotes.isAscii {digits : Bytes} {n : Nat} (h : Denotes digits n) :
    ∀ b ∈ digits, Bytes.isAscii b = true :=
  fun b hb => Byte.isAscii_of_isDigit (h.isDigit b hb)

namespace Number

variable {digits : Bytes} {c d : Cursor}

theorem unsigned_reads (literal : Literal) {lo hi n : UInt32} (hdigits : Denotes digits n.toNat)
    (h : lo ≤ n ∧ n ≤ hi) : (unsigned literal lo hi).Reads Byte.isDigit digits ⟨n, h⟩ := by
  have hvalue : Numeral.decimal32? digits = some n :=
    Numeral.decimal32?_eq_some_iff.mpr hdigits.value_eq
  apply Parser.Reads.attempt
  apply Parser.Reads.position
  intro start
  apply (Parser.Reads.takeWhile fun b hb => ⟨hdigits.isAscii b hb, hdigits.isDigit b hb⟩).bind_ok
  intro c
  simp [hdigits.ne_nil, hvalue, h]

/-- The whole run of digits is accumulated, and what it comes to is compared with the bounds. -/
theorem eval_unsigned (literal : Literal) (lo hi : UInt32) (c : Cursor) :
    (unsigned literal lo hi).eval c =
      if c.run Byte.isDigit = [] then (.error ⟨literal, c.position, .empty⟩, c)
      else
        match Numeral.decimal32? (c.run Byte.isDigit) with
        | some n =>
          if h : lo ≤ n ∧ n ≤ hi then (.ok ⟨n, h⟩, c.advance (c.run Byte.isDigit).length)
          else (.error ⟨literal, c.position, .outOfRange⟩, c)
        | none => (.error ⟨literal, c.position, .outOfRange⟩, c) := by
  rw [unsigned, Parser.eval_attempt, Parser.eval_bind_of_ok (Parser.eval_position c),
    Parser.eval_bind_of_ok (Parser.eval_takeWhile Byte.isDigit c)]
  by_cases hempty : c.run Byte.isDigit = []
  · simp [hempty]
  · cases Numeral.decimal32? (c.run Byte.isDigit) with
    | none => simp [hempty]
    | some n => by_cases hrange : lo ≤ n ∧ n ≤ hi <;> simp [hempty, hrange]

/-- The whole run of digits is read if its value lies in the range; otherwise nothing is. -/
theorem eval_unsigned_cases (literal : Literal) (lo hi : UInt32) (c : Cursor) :
    (∃ n, c.run Byte.isDigit ≠ [] ∧ Numeral.decimal32? (c.run Byte.isDigit) = some n.val ∧
        (unsigned literal lo hi).eval c = (.ok n, c.advance (c.run Byte.isDigit).length)) ∨
      ∃ reason, (unsigned literal lo hi).eval c = (.error ⟨literal, c.position, reason⟩, c) := by
  rw [eval_unsigned]
  by_cases hempty : c.run Byte.isDigit = []
  · exact .inr ⟨.empty, if_pos hempty⟩
  · rw [if_neg hempty]
    cases Numeral.decimal32? (c.run Byte.isDigit) with
    | none => exact .inr ⟨.outOfRange, rfl⟩
    | some n =>
      by_cases hrange : lo ≤ n ∧ n ≤ hi
      · exact .inl ⟨⟨n, hrange⟩, hempty, rfl, dif_pos hrange⟩
      · exact .inr ⟨.outOfRange, dif_neg hrange⟩

/-- What was read as a number is a run of digits that denotes it. -/
theorem unsigned_passes {literal : Literal} {lo hi : UInt32} {n : {n : UInt32 // lo ≤ n ∧ n ≤ hi}}
    (h : (unsigned literal lo hi).eval c = (.ok n, d)) :
    ∃ digits, Denotes digits n.val.toNat ∧ c.Passes digits d := by
  rcases eval_unsigned_cases literal lo hi c with ⟨m, hne, hvalue, heval⟩ | ⟨reason, heval⟩
  · rw [heval] at h
    cases h
    refine ⟨c.run Byte.isDigit, ⟨hne, fun b => Cursor.isMember_of_mem_run, ?_⟩,
      c.passes_advance_run Byte.isDigit⟩
    exact Numeral.decimal32?_eq_some_iff.mp hvalue
  · rw [heval] at h
    cases h

theorem port_reads {n : UInt16} (hdigits : Denotes digits n.toNat) :
    port.Reads Byte.isDigit digits n := by
  have hn : n.toNat < 65536 := n.toNat_lt
  have hrange : 0 ≤ n.toUInt32 ∧ n.toUInt32 ≤ maxPort := by
    simp only [UInt32.le_iff_toNat_le, UInt16.toNat_toUInt32, maxPort, UInt32.reduceToNat]
    omega
  rw [← UInt16.toNat_toUInt32] at hdigits
  apply (unsigned_reads .port hdigits hrange).bind_ok
  intro c
  simp

theorem port_passes {n : UInt16} (h : port.eval c = (.ok n, d)) :
    ∃ digits, Denotes digits n.toNat ∧ c.Passes digits d := by
  obtain ⟨m, hm, rfl⟩ := Parser.eval_map_eq_ok h
  obtain ⟨digits, hdigits, hpass⟩ := unsigned_passes hm
  have hle : m.val.toNat ≤ 65535 := UInt32.le_iff_toNat_le.mp m.property.2
  have hnarrow : m.val.toUInt16.toNat = m.val.toNat := by
    rw [UInt32.toNat_toUInt16]
    omega
  exact ⟨digits, by rwa [hnarrow], hpass⟩

end Number

namespace PrefixLength

variable {f : Family} {digits : Bytes} {p : PrefixLength f}

theorem parser_reads (hdigits : Denotes digits p.len) :
    parser.Reads Byte.isDigit digits p := by
  have hp := p.len_le
  have hbits : (UInt32.ofNat f.bits).toNat = f.bits := by cases f <;> rfl
  have hlt : f.bits < UInt32.size := by cases f <;> decide
  have hlen : (UInt32.ofNat p.len).toNat = p.len := UInt32.toNat_ofNat_of_lt' (by omega)
  have hrange : 0 ≤ UInt32.ofNat p.len ∧ UInt32.ofNat p.len ≤ UInt32.ofNat f.bits := by
    rw [UInt32.le_iff_toNat_le, UInt32.le_iff_toNat_le, hlen, hbits]
    exact ⟨Nat.zero_le _, hp⟩
  rw [← hlen] at hdigits
  apply (Number.unsigned_reads .prefixLength hdigits hrange).bind_ok
  intro c
  obtain ⟨len, len_le⟩ := p
  simpa using hlen

theorem parser_passes {c d : Cursor} (h : parser.eval c = (.ok p, d)) :
    ∃ digits, Denotes digits p.len ∧ c.Passes digits d := by
  obtain ⟨n, hn, rfl⟩ := Parser.eval_map_eq_ok h
  exact Number.unsigned_passes hn

end PrefixLength

end NetLiteral
