import NetLiteral.Endpoint
import NetLiteral.Proofs.Address.Text
import NetLiteral.Proofs.Number
import NetLiteral.Proofs.Route.Order

/-!
# Endpoints and routes read at a cursor

An endpoint and a route are read part by part, each part up to the separator after it. They are read
from every text of an address and every run of digits, among them their canonical texts, and from
nothing else.
-/

namespace NetLiteral

open Numeral (Denotes)

/-! ## Endpoints -/

namespace Endpoint

variable {v : IpVersion} {a : Address v.family} {text digits : Bytes}

/-- The text of an address as part of an endpoint. -/
def enclosed (v : IpVersion) (text : Bytes) : Bytes :=
  if v.isBracketed then Byte.openBracket :: text ++ [Byte.closeBracket] else text

theorem addressPart_reads (h : Address.read? v.family text = some a) :
    addressPart.Reads Byte.isIpv4 (enclosed v text) a := by
  cases v with
  | v4 => exact Address.parser_reads h
  | v6 =>
    apply Parser.Reads.expect
    apply Parser.Reads.bind (Address.parser_reads h)
    · apply Parser.Reads.expect
      exact Parser.Reads.pure a
    · exact fun rest _ => EndsRun.cons_iff.mpr rfl

theorem addressPart_passes {c d : Cursor} (h : addressPart.eval c = (.ok a, d)) :
    ∃ text, Address.read? v.family text = some a ∧ c.Passes (enclosed v text) d := by
  cases v with
  | v4 => exact ⟨_, Address.parser_passes h⟩
  | v6 =>
    obtain ⟨_, c₁, hopen, hrest⟩ := Parser.eval_bind_eq_ok h
    obtain ⟨a', c₂, haddress, hrest⟩ := Parser.eval_bind_eq_ok hrest
    obtain ⟨_, c₃, hclose, hpure⟩ := Parser.eval_bind_eq_ok hrest
    cases hpure
    obtain ⟨hread, hpass⟩ := Address.parser_passes haddress
    refine ⟨_, hread, ?_⟩
    exact (Parser.passes_of_eval_expect hopen).trans
      (hpass.trans (Parser.passes_of_eval_expect hclose))

theorem parser_reads_parts {port : UInt16} (ha : Address.read? v.family text = some a)
    (hport : Denotes digits port.toNat) :
    parser.Reads Byte.isDigit (enclosed v text ++ Byte.colon :: digits) ⟨a, port⟩ := by
  apply Parser.Reads.position
  intro start
  apply Parser.Reads.onFailure
  apply Parser.Reads.attempt
  apply Parser.Reads.bind (addressPart_reads ha)
  · apply Parser.Reads.expect
    apply (Number.port_reads hport).bind_ok
    exact fun c => rfl
  · exact fun rest _ => EndsRun.cons_iff.mpr rfl

/-- The canonical text of an endpoint is read as that endpoint. -/
theorem parser_reads (e : Endpoint v) : parser.Reads Byte.isDigit e.write e :=
  parser_reads_parts (Address.read?_write e.address) (Numeral.denotes_decimal e.port.toNat)

/-- What is read as an endpoint is its parts, one after another. -/
theorem eval_parser_eq_ok {c d : Cursor} {e : Endpoint v} (h : parser.eval c = (.ok e, d)) :
    ∃ c₁ c₂, addressPart.eval c = (.ok e.address, c₁) ∧ c₁.Passes [Byte.colon] c₂ ∧
      Number.port.eval c₂ = (.ok e.port, d) := by
  rw [parser, Parser.eval_bind_of_ok (Parser.eval_position c), Parser.eval_onFailure] at h
  obtain ⟨a, c₁, haddress, hrest⟩ := Parser.eval_bind_eq_ok (Parser.eval_attempt_eq_ok h)
  obtain ⟨_, c₂, hcolon, hrest⟩ := Parser.eval_bind_eq_ok hrest
  obtain ⟨port, hport, he⟩ := Parser.eval_map_eq_ok hrest
  subst he
  exact ⟨c₁, c₂, haddress, Parser.passes_of_eval_expect hcolon, hport⟩

end Endpoint

/-! ## Routes -/

namespace Route

variable {f : Family} {a : Address f} {p : PrefixLength f} {text digits : Bytes}

theorem isMember_slash : f.isMember Byte.slash = false := by
  cases f <;> rfl

/-- Clearing the host bits of a route changes nothing. -/
theorem of_address_prefixLength (r : Route f) : of r.address r.prefixLength = r :=
  ext_address r.network_eq rfl

theorem parser_reads_parts (ha : Address.read? f text = some a) (hp : Denotes digits p.len) :
    parser.Reads Byte.isDigit (text ++ Byte.slash :: digits) (of a p) := by
  apply Parser.Reads.position
  intro start
  apply Parser.Reads.onFailure
  apply Parser.Reads.attempt
  apply Parser.Reads.bind (Address.parser_reads ha)
  · apply Parser.Reads.expect
    apply (PrefixLength.parser_reads hp).bind_ok
    exact fun c => rfl
  · exact fun rest _ => EndsRun.cons_iff.mpr isMember_slash

/-- The canonical text of a route is read as that route. -/
theorem parser_reads (r : Route f) : parser.Reads Byte.isDigit r.write r := by
  have h := parser_reads_parts (Address.read?_write r.address)
    (Numeral.denotes_decimal r.prefixLength.len)
  rwa [of_address_prefixLength] at h

/-- What is read as a route is its parts, one after another. -/
theorem eval_parser_eq_ok {c d : Cursor} {r : Route f} (h : parser.eval c = (.ok r, d)) :
    ∃ a p c₁ c₂, (Address.parser : Parser (Address f)).eval c = (.ok a, c₁) ∧
      c₁.Passes [Byte.slash] c₂ ∧ PrefixLength.parser.eval c₂ = (.ok p, d) ∧ of a p = r := by
  rw [parser, Parser.eval_bind_of_ok (Parser.eval_position c), Parser.eval_onFailure] at h
  obtain ⟨a, c₁, haddress, hrest⟩ := Parser.eval_bind_eq_ok (Parser.eval_attempt_eq_ok h)
  obtain ⟨_, c₂, hslash, hrest⟩ := Parser.eval_bind_eq_ok hrest
  obtain ⟨p, hp, hr⟩ := Parser.eval_map_eq_ok hrest
  exact ⟨a, p, c₁, c₂, haddress, Parser.passes_of_eval_expect hslash, hp, hr⟩

end Route

end NetLiteral
