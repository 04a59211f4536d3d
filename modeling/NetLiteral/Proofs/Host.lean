import NetLiteral.Host
import NetLiteral.Proofs.Address.Text
import NetLiteral.Proofs.Hostname

/-!
# Hosts read at a cursor

The alternatives of a host are tried in order, and each of them refuses the texts of the later ones:
an IPv4 address has a dot among its first bytes, an IPv6 address has a colon.
-/

namespace NetLiteral

open Byte (isLiteral)

variable {consumed rest : Bytes}

/-! ## Texts that are no address -/

theorem Address.ipv4_refuses_of_dot_not_mem {c : Cursor} (h : Byte.dot ∉ c.run Byte.isIpv4) :
    (parser : Parser (Address .ipv4)).Refuses c := by
  apply parser_refuses
  rw [Option.eq_none_iff_forall_ne_some]
  intro a hread
  exact h (Ipv4.dot_mem_of_read? hread)

/-- A text with at most one colon has no IPv6 address in it, wherever the run of its bytes ends. -/
theorem Address.ipv6_refuses_of_count_colon {text : Bytes} (h : text.count Byte.colon < 2)
    (hrest : EndsRun Byte.isIpv6 rest) :
    (parser : Parser (Address .ipv6)).Refuses ⟨consumed, text ++ rest⟩ := by
  apply parser_refuses
  rw [Option.eq_none_iff_forall_ne_some]
  intro a hread
  have hcount := (Ipv6.spells_of_read?_eq_some hread).two_le_count_colon
  have hrun : Cursor.run ⟨consumed, text ++ rest⟩ Byte.isIpv6 <+: text :=
    Cursor.run_isPrefix (.inl hrest)
  have hle := hrun.sublist.count_le Byte.colon
  exact Nat.lt_irrefl 2 (Nat.lt_of_le_of_lt (Nat.le_trans hcount hle) h)

/-- An IPv6 address is written without dots. -/
theorem Address.ipv4_refuses_ipv6 {text : Bytes} {a : Address .ipv6}
    (h : read? .ipv6 text = some a) (hrest : EndsRun isLiteral rest) :
    (parser : Parser (Address .ipv4)).Refuses ⟨consumed, text ++ rest⟩ := by
  apply ipv4_refuses_of_dot_not_mem
  intro hdot
  have hends : EndsRun Byte.isIpv4 rest :=
    hrest.mono fun b hb => Byte.isLiteral_of_isMember (f := .ipv4) hb
  have hmem := Cursor.mem_of_mem_run (.inl hends) hdot
  exact Bool.false_ne_true (isMember_of_read? h Byte.dot hmem)

/-- The run of digits and dots ends in the first label, which is not a number. -/
theorem Address.ipv4_refuses_name (h : Hostname) :
    (parser : Parser (Address .ipv4)).Refuses ⟨consumed, h.write ++ rest⟩ := by
  obtain ⟨labels, hne, hlength⟩ := h
  cases labels with
  | nil => exact absurd rfl hne
  | cons label labels =>
    obtain ⟨_, _, _, _, b, hb, hdigit⟩ := Label.isValid_iff.mp label.valid
    have hipv4 : Byte.isIpv4 b = false := by
      have hdot : b ≠ Byte.dot := by
        rintro rfl
        exact label.dot_not_mem hb
      simp [Byte.isIpv4, hdigit, hdot]
    rw [Hostname.write, Hostname.join_cons, List.append_assoc]
    apply ipv4_refuses_of_dot_not_mem
    intro hdot
    exact label.dot_not_mem (Cursor.mem_of_mem_run (.inr ⟨b, hb, hipv4⟩) hdot)

/-- A name has no colon. -/
theorem Hostname.count_colon_write (h : Hostname) : h.write.count Byte.colon = 0 := by
  rw [List.count_eq_zero]
  intro hcolon
  exact Bool.false_ne_true (h.isName_of_mem_write Byte.colon hcolon)

theorem Address.ipv6_refuses_name (h : Hostname) (hrest : EndsRun isLiteral rest) :
    (parser : Parser (Address .ipv6)).Refuses ⟨consumed, h.write ++ rest⟩ := by
  apply ipv6_refuses_of_count_colon
  · rw [h.count_colon_write]
    exact Nat.two_pos
  · exact hrest.mono fun b hb => Byte.isLiteral_of_isMember (f := .ipv6) hb

/-! ## Addresses of either version -/

namespace IpAddress

variable {m : Families}

/-- The readers of the chosen versions, in the order in which they are tried. -/
def alternatives (m : Families) : List (Parser IpAddress) :=
  (if m.v4 then [v4 <$> Address.parser] else []) ++ if m.v6 then [v6 <$> Address.parser] else []

theorem forall_mem_alternatives {P : Parser IpAddress → Prop} (h4 : P (v4 <$> Address.parser))
    (h6 : P (v6 <$> Address.parser)) : ∀ p ∈ alternatives m, P p := by
  simp only [alternatives, List.mem_append, List.mem_ite_nil_right, List.mem_singleton]
  rintro p (⟨-, rfl⟩ | ⟨-, rfl⟩)
  · exact h4
  · exact h6

theorem eval_parseWith (m : Families) (c : Cursor) : (parseWith m).eval c =
    (Parser.choice ⟨.host, c.position, .empty⟩ (alternatives m)).eval c :=
  Parser.eval_bind_of_ok (Parser.eval_position c) _

theorem parseWith_reads (h4 : m.v4 = true) (h6 : m.v6 = true) (a : IpAddress) :
    (parseWith m).Reads isLiteral a.write a := by
  simp only [parseWith, h4, h6, if_true]
  apply Parser.Reads.position
  intro start
  cases a with
  | v4 a =>
    apply Parser.Reads.choice_head
    apply Parser.Reads.map
    exact (Address.parser_reads_write a).mono fun _ => Byte.isLiteral_of_isMember
  | v6 a =>
    apply Parser.Reads.choice_tail
    · exact fun consumed rest hrest => (Address.ipv4_refuses_ipv6 (Address.read?_write a) hrest).map v4
    · intro e
      apply Parser.Reads.choice_head
      apply Parser.Reads.map
      exact (Address.parser_reads_write a).mono fun _ => Byte.isLiteral_of_isMember

theorem parseWith_refuses {c : Cursor} (m : Families)
    (h4 : (Address.parser : Parser (Address .ipv4)).Refuses c)
    (h6 : (Address.parser : Parser (Address .ipv6)).Refuses c) : (parseWith m).Refuses c := by
  rw [Parser.Refuses, eval_parseWith]
  exact Parser.Refuses.choice (forall_mem_alternatives (h4.map v4) (h6.map v6)) _

theorem parseWith_refuses_name (m : Families) (h : Hostname) (hrest : EndsRun isLiteral rest) :
    (parseWith m).Refuses ⟨consumed, h.write ++ rest⟩ :=
  parseWith_refuses m (Address.ipv4_refuses_name h) (Address.ipv6_refuses_name h hrest)

end IpAddress

/-! ## Hosts -/

namespace Host

theorem parser_reads (host : Host) : (parseWith .all).Reads isLiteral host.write host := by
  apply Parser.Reads.position
  intro start
  cases host with
  | address a =>
    apply Parser.Reads.choice_head
    apply Parser.Reads.map
    exact IpAddress.parseWith_reads rfl rfl a
  | name h =>
    apply Parser.Reads.choice_tail
    · intro consumed rest hrest
      exact (IpAddress.parseWith_refuses_name .all h hrest).map address
    · intro e
      apply Parser.Reads.choice_head
      apply Parser.Reads.map
      exact h.parser_reads.mono fun b => Hostname.isLiteral_of_isName

end Host

end NetLiteral
