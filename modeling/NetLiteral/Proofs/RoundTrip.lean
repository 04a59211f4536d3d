import NetLiteral.Json
import NetLiteral.Proofs.Bytes.Encoding
import NetLiteral.Proofs.Composite
import NetLiteral.Proofs.Host

/-!
# Values read back from their texts

A value of any type is read back from its canonical text: at a cursor, before anything that cannot
go on with a literal; as the whole of a text; and from the JSON form of the value.
-/

namespace NetLiteral

open Byte (isLiteral)

/-- Values of a type are read back from their texts. -/
structure RoundTrips (α : Type) [TextForm α] : Prop where
  /-- Before a text that begins with no byte of a literal, the value is read and no more. -/
  parser : ∀ (a : α) (rest : String), EndsRun isLiteral (Bytes.ofString rest) →
    (TextForm.parser.eval (Cursor.ofString (TextForm.text a ++ rest)) : Except Failure α × Cursor) =
      (.ok a, ⟨Bytes.ofString (TextForm.text a), Bytes.ofString rest⟩)
  /-- The text of a value is read as the value. -/
  read : ∀ a : α, (TextForm.read α (TextForm.text a)).value = .ok a
  /-- The JSON form of a value is read as the value. -/
  json : ∀ a : α, (Json.toLiteral α (Json.ofLiteral a)).value = .ok a

/-- It is enough that the parser reads what is written, and writes only bytes of literals. -/
theorem RoundTrips.of_reads {α : Type} [TextForm α]
    (hreads : ∀ a : α, TextForm.parser.Reads isLiteral (TextForm.write a) a)
    (hascii : ∀ a : α, ∀ b ∈ TextForm.write a, Bytes.isAscii b = true) : RoundTrips α := by
  have htext (a : α) : Bytes.ofString (TextForm.text a) = TextForm.write a :=
    Bytes.ofString_toText (hascii a)
  have hread (a : α) : (TextForm.read α (TextForm.text a)).value = .ok a := by
    rw [TextForm.read, htext]
    exact Parser.value_parseAll_eq_ok_iff.mpr (hreads a).accepts
  refine ⟨?_, hread, ?_⟩
  · intro a rest hrest
    rw [Cursor.ofString, Cursor.ofBytes, Bytes.ofString_append, htext]
    exact hreads a [] _ hrest
  · intro a
    rw [Json.ofLiteral, Json.toLiteral, Logged.value_bind, hread]
    rfl

/-! ## Written texts are ASCII -/

theorem Numeral.isAscii_of_mem_decimal {n : Nat} :
    ∀ b ∈ decimal n, Bytes.isAscii b = true :=
  (denotes_decimal n).isAscii

theorem Address.isAscii_of_mem_write {f : Family} (a : Address f) :
    ∀ b ∈ a.write, Bytes.isAscii b = true := by
  intro b hb
  exact Byte.isAscii_of_isMember (isMember_of_read? (read?_write a) b hb)

theorem Endpoint.isAscii_of_mem_write {v : IpVersion} (e : Endpoint v) :
    ∀ b ∈ e.write, Bytes.isAscii b = true := by
  have haddress := e.address.isAscii_of_mem_write
  have hport := @Numeral.isAscii_of_mem_decimal e.port.toNat
  intro b hb
  cases v with
  | v4 =>
    simp [write, IpVersion.isBracketed] at hb
    rcases hb with hb | rfl | hb
    · exact haddress b hb
    · rfl
    · exact hport b hb
  | v6 =>
    simp [write, IpVersion.isBracketed] at hb
    rcases hb with rfl | hb | rfl | rfl | hb
    · rfl
    · exact haddress b hb
    · rfl
    · rfl
    · exact hport b hb

theorem Route.isAscii_of_mem_write {f : Family} (r : Route f) :
    ∀ b ∈ r.write, Bytes.isAscii b = true := by
  intro b hb
  simp [write] at hb
  rcases hb with hb | rfl | hb
  · exact r.address.isAscii_of_mem_write b hb
  · rfl
  · exact Numeral.isAscii_of_mem_decimal b hb

theorem Hostname.isAscii_of_mem_write (h : Hostname) :
    ∀ b ∈ h.write, Bytes.isAscii b = true := by
  intro b hb
  exact Byte.isAscii_of_isLiteral (isLiteral_of_isName (h.isName_of_mem_write b hb))

theorem IpAddress.isAscii_of_mem_write (a : IpAddress) :
    ∀ b ∈ a.write, Bytes.isAscii b = true := by
  cases a with
  | v4 a => exact a.isAscii_of_mem_write
  | v6 a => exact a.isAscii_of_mem_write

theorem Host.isAscii_of_mem_write (host : Host) :
    ∀ b ∈ host.write, Bytes.isAscii b = true := by
  cases host with
  | address a => exact a.isAscii_of_mem_write
  | name h => exact h.isAscii_of_mem_write

/-! ## Round trips -/

section

variable {f : Family} {v : IpVersion}

theorem Address.roundTrips : RoundTrips (Address f) :=
  .of_reads (fun a => a.parser_reads_write.mono fun _ => Byte.isLiteral_of_isMember)
    isAscii_of_mem_write

theorem PrefixLength.roundTrips : RoundTrips (PrefixLength f) :=
  .of_reads
    (fun p => (parser_reads (Numeral.denotes_decimal p.len)).mono
      fun _ => Byte.isLiteral_of_isDigit)
    fun _ => Numeral.isAscii_of_mem_decimal

theorem Endpoint.roundTrips : RoundTrips (Endpoint v) :=
  .of_reads (fun e => e.parser_reads.mono fun _ => Byte.isLiteral_of_isDigit)
    isAscii_of_mem_write

theorem Route.roundTrips : RoundTrips (Route f) :=
  .of_reads (fun r => r.parser_reads.mono fun _ => Byte.isLiteral_of_isDigit)
    isAscii_of_mem_write

theorem Hostname.roundTrips : RoundTrips Hostname :=
  .of_reads (fun h => h.parser_reads.mono fun _ => isLiteral_of_isName) isAscii_of_mem_write

theorem IpAddress.roundTrips : RoundTrips IpAddress :=
  .of_reads (parseWith_reads rfl rfl) isAscii_of_mem_write

theorem Host.roundTrips : RoundTrips Host :=
  .of_reads parser_reads isAscii_of_mem_write

end

/-- Every value of every type is read back from its texts. -/
theorem values_round_trip :
    (∀ f, RoundTrips (Address f)) ∧ (∀ f, RoundTrips (PrefixLength f)) ∧
      (∀ v, RoundTrips (Endpoint v)) ∧ (∀ f, RoundTrips (Route f)) ∧
      RoundTrips Hostname ∧ RoundTrips IpAddress ∧ RoundTrips Host :=
  ⟨fun _ => Address.roundTrips, fun _ => PrefixLength.roundTrips, fun _ => Endpoint.roundTrips,
    fun _ => Route.roundTrips, Hostname.roundTrips, IpAddress.roundTrips, Host.roundTrips⟩

end NetLiteral
