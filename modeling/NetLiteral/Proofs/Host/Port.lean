import NetLiteral.Proofs.Host
import NetLiteral.Proofs.RoundTrip

/-!
# Hosts before ports

A name or an IPv4 address with a colon and a port after it is read up to the colon. The run of bytes
of an IPv6 address may go on over the colon and the port, but one colon makes no such address, so
the run is given back and the name is read from the same place.
-/

namespace NetLiteral

open Byte (isLiteral)

/-! ## Alternatives of a host -/

namespace Host

variable {c d : Cursor}

theorem eval_parseWith_all (c : Cursor) :
    (parseWith .all).eval c = (Parser.choice ⟨.host, c.position, .empty⟩
      [address <$> IpAddress.parseWith .all, name <$> Hostname.parser]).eval c := by
  rw [parseWith, Parser.eval_bind_of_ok (Parser.eval_position c)]
  rfl

theorem eval_of_ipv4 {a : Address .ipv4} (h : Address.parser.eval c = (.ok a, d)) :
    (parseWith .all).eval c = (.ok (address (.v4 a)), d) := by
  have hip : (IpAddress.parseWith .all).eval c = (.ok (.v4 a), d) :=
    Parser.eval_choice_of_ok (Parser.eval_map_of_ok h IpAddress.v4) ⟨.host, c.position, .empty⟩ _
  rw [eval_parseWith_all]
  exact Parser.eval_choice_of_ok (Parser.eval_map_of_ok hip address) _ _

/-- A name is read where both kinds of addresses are refused. -/
theorem eval_of_name {h : Hostname} (hip : (IpAddress.parseWith .all).Refuses c)
    (hname : Hostname.parser.eval c = (.ok h, d)) :
    (parseWith .all).eval c = (.ok (name h), d) := by
  obtain ⟨e, he⟩ := hip.map address
  rw [eval_parseWith_all, Parser.eval_choice_of_error he]
  exact Parser.eval_choice_of_ok (Parser.eval_map_of_ok hname name) _ _

end Host

/-! ## Ports -/

variable {consumed digits rest : Bytes}

namespace Host

variable {host : Host}

theorem count_colon_write (h : ∀ a, host ≠ address (.v6 a)) : host.write.count Byte.colon = 0 := by
  match host with
  | address (.v6 a) => exact absurd rfl (h a)
  | address (.v4 a) =>
    rw [List.count_eq_zero]
    intro hcolon
    cases Address.isMember_of_read? (Address.read?_write a) Byte.colon hcolon
  | name h => exact h.count_colon_write

/-- There is one colon up to the end of the port, and so no IPv6 address. -/
theorem ipv6_refuses_before_port (h : ∀ a, host ≠ address (.v6 a)) (hdigits : Byte.colon ∉ digits)
    (hrest : EndsRun isLiteral rest) : (Address.parser : Parser (Address .ipv6)).Refuses
      ⟨consumed, host.write ++ Byte.colon :: (digits ++ rest)⟩ := by
  have hcount : (host.write ++ Byte.colon :: digits).count Byte.colon = 1 := by
    rw [List.count_append, List.count_cons_self, count_colon_write h,
      List.count_eq_zero.mpr hdigits]
  have hends : EndsRun Byte.isIpv6 rest :=
    hrest.mono fun b hb => Byte.isLiteral_of_isMember (f := .ipv6) hb
  rw [← List.cons_append, ← List.append_assoc]
  exact Address.ipv6_refuses_of_count_colon (by omega) hends

theorem parser_reads_before_port (h : ∀ a, host ≠ address (.v6 a)) (hdigits : Byte.colon ∉ digits)
    (hrest : EndsRun isLiteral rest) :
    (parseWith .all).eval ⟨consumed, host.write ++ Byte.colon :: (digits ++ rest)⟩ =
      (.ok host, ⟨consumed ++ host.write, Byte.colon :: (digits ++ rest)⟩) := by
  match host with
  | address (.v6 a) => exact absurd rfl (h a)
  | address (.v4 a) => exact eval_of_ipv4 (a.parser_reads_write _ _ (EndsRun.cons_iff.mpr rfl))
  | name g =>
    apply eval_of_name
    · apply IpAddress.parseWith_refuses
      · exact Address.ipv4_refuses_name g
      · exact ipv6_refuses_before_port h hdigits hrest
    · exact g.parser_reads _ _ (EndsRun.cons_iff.mpr rfl)

/-- The run of bytes of an IPv6 address does not stop at the colon after hexadecimal digits. -/
theorem run_isIpv6_before_port (h : ∀ b ∈ host.write, Byte.isHexDigit b = true)
    (hdigits : ∀ b ∈ digits, Byte.isDigit b = true) (hrest : EndsRun isLiteral rest) :
    Cursor.run ⟨consumed, host.write ++ Byte.colon :: (digits ++ rest)⟩ Byte.isIpv6 =
      host.write ++ Byte.colon :: digits := by
  have hmember : ∀ b ∈ host.write ++ Byte.colon :: digits, Byte.isIpv6 b = true := by
    intro b hb
    rw [List.mem_append, List.mem_cons] at hb
    rcases hb with hb | rfl | hb
    · simp [Byte.isIpv6, h b hb]
    · rfl
    · simp [Byte.isIpv6, Byte.isHexDigit, hdigits b hb]
  rw [← List.cons_append, ← List.append_assoc]
  apply Cursor.run_append
  · intro b hb
    have hb' := Byte.isLiteral_of_isMember (f := .ipv6) (hmember b hb)
    exact ⟨Byte.isAscii_of_isLiteral hb', hmember b hb⟩
  · exact hrest.mono fun b hb => Byte.isLiteral_of_isMember (f := .ipv6) hb

/-- Before the text of a host there stands `before`, and after it a colon, a port and `rest`. -/
def beforePort (host : Host) (before port rest : String) : Cursor :=
  ⟨Bytes.ofString before, Bytes.ofString (TextForm.text host ++ ":" ++ port ++ rest)⟩

theorem ofString_text (host : Host) : Bytes.ofString (TextForm.text host) = host.write :=
  Bytes.ofString_toText host.isAscii_of_mem_write

theorem beforePort_eq (host : Host) (before port rest : String) :
    host.beforePort before port rest = ⟨Bytes.ofString before,
      host.write ++ Byte.colon :: (Bytes.ofString port ++ Bytes.ofString rest)⟩ := by
  have hcolon : Bytes.ofString ":" = [Byte.colon] := rfl
  simp [beforePort, Bytes.ofString_append, ofString_text, hcolon]

end Host

/-- A name or an IPv4 address before a colon, a run of digits and anything that cannot go on with it
is read up to the colon, wherever the text stands. For a name of hexadecimal digits alone, the run
of bytes of an IPv6 address goes on to the end of the port, and nothing is read of it. -/
theorem host_split_from_port {host : Host} {before port rest : String}
    (hhost : ∀ a, host ≠ .address (.v6 a))
    (hport : ∀ b ∈ Bytes.ofString port, Byte.isDigit b = true)
    (hrest : EndsRun isLiteral (Bytes.ofString rest)) :
    (TextForm.parser : Parser Host).eval (host.beforePort before port rest) =
      (.ok host,
        ⟨Bytes.ofString (before ++ TextForm.text host), Bytes.ofString (":" ++ port ++ rest)⟩) ∧
    ((∀ b ∈ host.write, Byte.isHexDigit b = true) →
      (host.beforePort before port rest).run Byte.isIpv6 =
          Bytes.ofString (TextForm.text host ++ ":" ++ port) ∧
        (Address.parser : Parser (Address .ipv6)).Refuses (host.beforePort before port rest)) := by
  have hcolon : Bytes.ofString ":" = [Byte.colon] := rfl
  have hdigits : Byte.colon ∉ Bytes.ofString port :=
    fun hmem => Bool.false_ne_true (hport Byte.colon hmem)
  rw [host.beforePort_eq]
  simp only [Bytes.ofString_append, host.ofString_text, hcolon, List.append_assoc,
    List.singleton_append]
  refine ⟨Host.parser_reads_before_port hhost hdigits hrest, fun hhex => ⟨?_, ?_⟩⟩
  · exact Host.run_isIpv6_before_port hhex hport hrest
  · exact Host.ipv6_refuses_before_port hhost hdigits hrest

/-- A name of hexadecimal digits alone before a port and a path. -/
theorem deadbeef_split_from_port :
    ∃ host : Host, TextForm.text host = "deadbeef" ∧
      (TextForm.parser : Parser Host).eval (host.beforePort "" "5432" "/db") =
        (.ok host, ⟨Bytes.ofString "deadbeef", Bytes.ofString ":5432/db"⟩) ∧
      (host.beforePort "" "5432" "/db").run Byte.isIpv6 = Bytes.ofString "deadbeef:5432" ∧
      (Address.parser : Parser (Address .ipv6)).Refuses (host.beforePort "" "5432" "/db") := by
  let host : Host :=
    .name ⟨[⟨Bytes.ofString "deadbeef", by decide⟩], List.cons_ne_nil _ _, by decide⟩
  have htext : TextForm.text host = "deadbeef" := by decide
  have hhost : ∀ a, host ≠ .address (.v6 a) := fun _ => Host.noConfusion
  have hport : (Bytes.ofString "5432").all Byte.isDigit = true := by decide
  have hrest : EndsRun isLiteral (Bytes.ofString "/db") := EndsRun.cons_iff.mpr rfl
  have hhex : host.write.all Byte.isHexDigit = true := by decide
  obtain ⟨hreads, hname⟩ :=
    @host_split_from_port host "" "5432" "/db" hhost (List.all_eq_true.mp hport) hrest
  obtain ⟨hrun, hrefuses⟩ := hname (List.all_eq_true.mp hhex)
  rw [htext] at hreads hrun
  exact ⟨host, htext, hreads, hrun, hrefuses⟩

end NetLiteral
