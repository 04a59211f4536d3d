import NetLiteral.Address.Text
import NetLiteral.Proofs.Address.Ethernet
import NetLiteral.Proofs.Address.Ipv4
import NetLiteral.Proofs.Address.Ipv6.Canonical
import NetLiteral.Proofs.Parser.Accepts

/-!
# Addresses read at a cursor

The parser of a family reads every text that is an address of the family, and fails where the run
of the family's bytes is none. The canonical text of an address is read as that address.
-/

namespace NetLiteral.Address

variable {f : Family}

/-- What is read as an address is made of bytes of its family. -/
theorem isMember_of_read? {text : Bytes} {a : Address f} (h : read? f text = some a) :
    ∀ b ∈ text, f.isMember b = true := by
  cases f with
  | ipv4 => exact Ipv4.isIpv4_of_read? h
  | ipv6 => exact (Ipv6.spells_of_read?_eq_some h).isIpv6
  | ethernet => exact Ethernet.isEthernet_of_read? h

theorem read?_nil : read? f [] = none := by
  cases f <;> rfl

theorem read?_write (a : Address f) : read? f a.write = some a := by
  cases f with
  | ipv4 => exact Ipv4.read?_write a
  | ipv6 => exact Ipv6.read?_eq_some_of_spells (Ipv6.spells_write a)
  | ethernet => exact Ethernet.read?_write a

/-! ## The parser -/

theorem parser_reads {text : Bytes} {a : Address f} (h : read? f text = some a) :
    (parser : Parser (Address f)).Reads f.isMember text a := by
  have hmember := isMember_of_read? h
  have hempty : text.isEmpty = false := by
    rw [List.isEmpty_eq_false_iff]
    rintro rfl
    rw [read?_nil] at h
    cases h
  have hclass : ∀ b ∈ text, Bytes.isAscii b = true ∧ f.isMember b = true := by
    exact fun b hb => ⟨Byte.isAscii_of_isMember (hmember b hb), hmember b hb⟩
  apply Parser.Reads.attempt
  apply Parser.Reads.position
  intro start
  apply (Parser.Reads.takeWhile hclass).bind_ok
  intro c
  simp [hempty, h]

/-- The canonical text of an address is read as that address. -/
theorem parser_reads_write (a : Address f) : parser.Reads f.isMember a.write a :=
  parser_reads (read?_write a)

/-- The whole run of the family's bytes is read as an address, or nothing is. -/
theorem parser_eval (c : Cursor) :
    (parser : Parser (Address f)).eval c =
      match read? f (c.run f.isMember) with
      | some a => (.ok a, c.advance (c.run f.isMember).length)
      | none =>
        let reason := if (c.run f.isMember).isEmpty then .empty else .malformed
        (.error ⟨f.literal, c.position, reason⟩, c) := by
  rw [parser, Parser.eval_attempt, Parser.eval_bind_of_ok (Parser.eval_position c),
    Parser.eval_bind_of_ok (Parser.eval_takeWhile f.isMember c)]
  by_cases hempty : c.run f.isMember = []
  · simp [hempty, read?_nil]
  · cases read? f (c.run f.isMember) <;> simp [hempty]

/-- What was read as an address is the run of the family's bytes. -/
theorem parser_passes {c d : Cursor} {a : Address f} (h : parser.eval c = (.ok a, d)) :
    read? f (c.run f.isMember) = some a ∧ c.Passes (c.run f.isMember) d := by
  rw [parser_eval] at h
  cases hread : read? f (c.run f.isMember) with
  | none =>
    rw [hread] at h
    cases h
  | some a' =>
    rw [hread] at h
    cases h
    exact ⟨rfl, c.passes_advance_run f.isMember⟩

/-- Where the run of the family's bytes is no address, nothing is read. -/
theorem parser_refuses {c : Cursor} (h : read? f (c.run f.isMember) = none) :
    (parser : Parser (Address f)).Refuses c := by
  rw [Parser.Refuses, parser_eval, h]
  exact ⟨_, rfl⟩

/-- The whole texts that are read at a cursor are those that are addresses. -/
theorem parser_accepts_iff {text : Bytes} {a : Address f} :
    parser.Accepts text a ↔ read? f text = some a := by
  constructor
  · rintro ⟨d, heval, hend⟩
    obtain ⟨hread, hunread, _⟩ := parser_passes heval
    rw [hend, List.append_nil] at hunread
    rwa [← hunread] at hread
  · exact fun h => (parser_reads h).accepts

theorem read_eq_ok_iff {s : String} {a : Address f} :
    (TextForm.read (Address f) s).value = .ok a ↔ read? f (Bytes.ofString s) = some a :=
  Parser.value_parseAll_eq_ok_iff.trans parser_accepts_iff

/-- The parser fails where the run begins, and says whether there is one. -/
theorem parser_eval_eq_error_iff {c d : Cursor} {e : Failure} :
    (parser : Parser (Address f)).eval c = (.error e, d) ↔
      read? f (c.run f.isMember) = none ∧ d = c ∧
        e = ⟨f.literal, c.position, if c.run f.isMember = [] then .empty else .malformed⟩ := by
  rw [parser_eval]
  cases read? f (c.run f.isMember) with
  | some a => simp
  | none =>
    simp only [List.isEmpty_iff, true_and]
    constructor
    · intro h
      cases h
      exact ⟨rfl, rfl⟩
    · rintro ⟨rfl, rfl⟩
      rfl

end NetLiteral.Address
