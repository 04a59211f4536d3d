import NetLiteral.Proofs.Host
import NetLiteral.Proofs.Reader.Progress

/-!
# Whole texts of hosts

A text is an IPv4 address, an IPv6 address or a name, or none of them, and never two of them. So a
host is read from a whole text exactly if one of the chosen kinds is, although the kinds are tried
in order and none is tried again.
-/

namespace NetLiteral

variable {text : Bytes}

/-! ## A text is of one kind -/

theorem Address.not_ipv4_and_ipv6 {a : Address .ipv4} {b : Address .ipv6}
    (h4 : read? .ipv4 text = some a) (h6 : read? .ipv6 text = some b) : False := by
  have hdot := isMember_of_read? h6 Byte.dot (Ipv4.dot_mem_of_read? h4)
  cases hdot

theorem Address.not_ipv4_and_name {a : Address .ipv4} {h : Hostname}
    (h4 : read? .ipv4 text = some a) (hname : text = h.write) : False := by
  subst hname
  have hrefuses : (parser : Parser (Address .ipv4)).Refuses (.ofBytes (h.write ++ [])) :=
    ipv4_refuses_name h
  rw [List.append_nil] at hrefuses
  exact (parser_accepts_iff.mpr h4).not_refuses hrefuses

theorem Address.not_ipv6_and_name {a : Address .ipv6} {h : Hostname}
    (h6 : read? .ipv6 text = some a) (hname : text = h.write) : False := by
  subst hname
  have hcolon := (Ipv6.spells_of_read?_eq_some h6).colon_mem
  exact Bool.false_ne_true (h.isName_of_mem_write Byte.colon hcolon)

/-! ## Choices accept what one of their kinds accepts -/

theorem IpAddress.parseWith_accepts_iff {m : Families} {ip : IpAddress} :
    (parseWith m).Accepts text ip ↔
      (m.v4 = true ∧ ∃ a, Address.read? .ipv4 text = some a ∧ v4 a = ip) ∨
        (m.v6 = true ∧ ∃ a, Address.read? .ipv6 text = some a ∧ v6 a = ip) := by
  have hrefuses (ip : IpAddress) (h : (v6 <$> Address.parser).Accepts text ip) :
      (v4 <$> Address.parser).Refuses (.ofBytes text) := by
    obtain ⟨a, ha, _⟩ := Parser.Accepts.map_iff.mp h
    have hrefuses : (Address.parser : Parser (Address .ipv4)).Refuses (.ofBytes (text ++ [])) :=
      Address.ipv4_refuses_ipv6 (Address.parser_accepts_iff.mp ha) EndsRun.nil
    rw [List.append_nil] at hrefuses
    exact hrefuses.map v4
  rw [parseWith, Parser.choice_accepts_iff]
  · simp only [List.mem_append, List.mem_ite_nil_right, List.mem_singleton, or_and_right,
      exists_or, and_assoc, exists_and_left, exists_eq_left, Parser.Accepts.map_iff,
      Address.parser_accepts_iff]
  · exact IpAddress.orderly_of_mem_alternatives
  · cases m.v4 <;> cases m.v6 <;> simp
    exact hrefuses

theorem Host.parseWith_accepts_iff {m : Families} {host : Host} :
    (parseWith m).Accepts text host ↔
      (∃ ip, (IpAddress.parseWith m).Accepts text ip ∧ address ip = host) ∨
        (m.name = true ∧ ∃ h : Hostname, text = h.write ∧ name h = host) := by
  have hrefuses (host : Host) (h : (name <$> Hostname.parser).Accepts text host) :
      (address <$> IpAddress.parseWith m).Refuses (.ofBytes text) := by
    obtain ⟨h, hh, _⟩ := Parser.Accepts.map_iff.mp h
    have hrefuses : (IpAddress.parseWith m).Refuses (.ofBytes (h.write ++ [])) :=
      IpAddress.parseWith_refuses_name m h EndsRun.nil
    rw [List.append_nil, ← Hostname.parser_accepts_iff.mp hh] at hrefuses
    exact hrefuses.map address
  -- Without a version there is no address to accept, so the test for one can be left out.
  have hversion : ∀ ip, (IpAddress.parseWith m).Accepts text ip → (m.v4 || m.v6) = true := by
    intro ip hip
    rcases IpAddress.parseWith_accepts_iff.mp hip with ⟨h4, _⟩ | ⟨h6, _⟩
    · rw [h4, Bool.true_or]
    · rw [h6, Bool.or_true]
  rw [parseWith, Parser.choice_accepts_iff]
  · simp only [List.mem_append, List.mem_ite_nil_right, List.mem_singleton, or_and_right,
      exists_or, and_assoc, exists_and_left, exists_eq_left, Parser.Accepts.map_iff,
      Hostname.parser_accepts_iff]
    refine or_congr_left ⟨And.right, ?_⟩
    rintro ⟨ip, hip, rfl⟩
    exact ⟨hversion ip hip, ip, hip, rfl⟩
  · simp only [List.mem_append, List.mem_ite_nil_right, List.mem_singleton]
    rintro p (⟨_, rfl⟩ | ⟨_, rfl⟩)
    · exact (IpAddress.parseWith_orderly m).map address
    · exact Hostname.parser_orderly.map name
  · cases m.v4 || m.v6 <;> cases m.name <;> simp
    exact hrefuses

/-! ## Kinds of a text -/

/-- `host` is what a text denotes when it is read as the kind of `host` alone, and that kind is one
of the chosen ones. -/
def Host.IsReadAlone (m : Families) (s : String) : Host → Prop
  | address (.v4 a) => m.v4 = true ∧ (TextForm.read (Address .ipv4) s).value = .ok a
  | address (.v6 a) => m.v6 = true ∧ (TextForm.read (Address .ipv6) s).value = .ok a
  | name h => m.name = true ∧ (TextForm.read Hostname s).value = .ok h

theorem Hostname.read_eq_ok_iff {s : String} {h : Hostname} :
    (TextForm.read Hostname s).value = .ok h ↔ Bytes.ofString s = h.write :=
  Parser.value_parseAll_eq_ok_iff.trans parser_accepts_iff

theorem Host.exists_isReadAlone_iff {m : Families} {s : String} :
    (∃ host, IsReadAlone m s host) ↔
      (m.v4 = true ∧ ∃ a, (TextForm.read (Address .ipv4) s).value = .ok a) ∨
      (m.v6 = true ∧ ∃ a, (TextForm.read (Address .ipv6) s).value = .ok a) ∨
      (m.name = true ∧ ∃ h, (TextForm.read Hostname s).value = .ok h) := by
  constructor
  · rintro ⟨(a | a) | h, hm, hread⟩
    · exact .inl ⟨hm, a, hread⟩
    · exact .inr (.inl ⟨hm, a, hread⟩)
    · exact .inr (.inr ⟨hm, h, hread⟩)
  · rintro (⟨hm, a, hread⟩ | ⟨hm, a, hread⟩ | ⟨hm, h, hread⟩)
    · exact ⟨address (.v4 a), hm, hread⟩
    · exact ⟨address (.v6 a), hm, hread⟩
    · exact ⟨name h, hm, hread⟩

theorem Host.parseWith_accepts_iff_isReadAlone {m : Families} {s : String} {host : Host} :
    (parseWith m).Accepts (Bytes.ofString s) host ↔ host.IsReadAlone m s := by
  rw [parseWith_accepts_iff]
  simp only [IpAddress.parseWith_accepts_iff]
  match host with
  | address (.v4 a) => simp [IsReadAlone, Address.read_eq_ok_iff]
  | address (.v6 a) => simp [IsReadAlone, Address.read_eq_ok_iff]
  | name h => simp [IsReadAlone, Hostname.read_eq_ok_iff]

theorem IpAddress.parseWith_accepts_iff_isReadAlone {s : String} {ip : IpAddress} :
    (parseWith .ip).Accepts (Bytes.ofString s) ip ↔ (Host.address ip).IsReadAlone .ip s := by
  rw [parseWith_accepts_iff]
  cases ip with
  | v4 a => simp [Host.IsReadAlone, Address.read_eq_ok_iff]
  | v6 a => simp [Host.IsReadAlone, Address.read_eq_ok_iff]

/-- A text is read as one kind at most. -/
theorem Host.IsReadAlone.unique {m m' : Families} {s : String} {host host' : Host}
    (h : host.IsReadAlone m s) (h' : host'.IsReadAlone m' s) : host = host' := by
  -- Of one kind there is one value; two kinds exclude each other.
  match host, host', h, h' with
  | address (.v4 a), address (.v4 b), h, h' => rw [Except.ok.inj (h.2.symm.trans h'.2)]
  | address (.v6 a), address (.v6 b), h, h' => rw [Except.ok.inj (h.2.symm.trans h'.2)]
  | name g, name g', h, h' => rw [Except.ok.inj (h.2.symm.trans h'.2)]
  | address (.v4 a), address (.v6 b), h, h' | address (.v6 b), address (.v4 a), h', h =>
    exact (Address.not_ipv4_and_ipv6 (Address.read_eq_ok_iff.mp h.2)
      (Address.read_eq_ok_iff.mp h'.2)).elim
  | address (.v4 a), name g, h, h' | name g, address (.v4 a), h', h =>
    exact (Address.not_ipv4_and_name (Address.read_eq_ok_iff.mp h.2)
      (Hostname.read_eq_ok_iff.mp h'.2)).elim
  | address (.v6 a), name g, h, h' | name g, address (.v6 a), h', h =>
    exact (Address.not_ipv6_and_name (Address.read_eq_ok_iff.mp h.2)
      (Hostname.read_eq_ok_iff.mp h'.2)).elim

/-- A whole text is read as a host exactly if one of the chosen kinds reads it alone, and then as
the value of that kind. No text is read as two kinds, whichever are chosen. -/
theorem Host.whole_texts_of_kinds (s : String) :
    (∀ m host, (Parser.parseAll .host (parseWith m) (Bytes.ofString s)).value = .ok host ↔
      host.IsReadAlone m s) ∧
    (∀ m, (∃ host, (Parser.parseAll .host (parseWith m) (Bytes.ofString s)).value = .ok host) ↔
      (m.v4 = true ∧ ∃ a, (TextForm.read (Address .ipv4) s).value = .ok a) ∨
      (m.v6 = true ∧ ∃ a, (TextForm.read (Address .ipv6) s).value = .ok a) ∨
      (m.name = true ∧ ∃ h, (TextForm.read Hostname s).value = .ok h)) ∧
    (∀ a b, ¬((TextForm.read (Address .ipv4) s).value = .ok a ∧
      (TextForm.read (Address .ipv6) s).value = .ok b)) ∧
    (∀ a h, ¬((TextForm.read (Address .ipv4) s).value = .ok a ∧
      (TextForm.read Hostname s).value = .ok h)) ∧
    (∀ a h, ¬((TextForm.read (Address .ipv6) s).value = .ok a ∧
      (TextForm.read Hostname s).value = .ok h)) ∧
    (∀ m m' host host',
      (Parser.parseAll .host (parseWith m) (Bytes.ofString s)).value = .ok host →
      (Parser.parseAll .host (parseWith m') (Bytes.ofString s)).value = .ok host' →
      host = host') ∧
    (∀ host, (TextForm.read Host s).value = .ok host ↔ host.IsReadAlone .all s) ∧
    (∀ ip, (TextForm.read IpAddress s).value = .ok ip ↔ (address ip).IsReadAlone .ip s) := by
  have hparse (m : Families) (host : Host) :
      (Parser.parseAll .host (parseWith m) (Bytes.ofString s)).value = .ok host ↔
        host.IsReadAlone m s :=
    Parser.value_parseAll_eq_ok_iff.trans parseWith_accepts_iff_isReadAlone
  refine ⟨hparse, ?_, ?_, ?_, ?_, ?_, hparse .all, ?_⟩
  · intro m
    simp only [hparse]
    exact exists_isReadAlone_iff
  · rintro a b ⟨h4, h6⟩
    exact Address.not_ipv4_and_ipv6 (Address.read_eq_ok_iff.mp h4) (Address.read_eq_ok_iff.mp h6)
  · rintro a h ⟨h4, hname⟩
    exact Address.not_ipv4_and_name (Address.read_eq_ok_iff.mp h4)
      (Hostname.read_eq_ok_iff.mp hname)
  · rintro a h ⟨h6, hname⟩
    exact Address.not_ipv6_and_name (Address.read_eq_ok_iff.mp h6)
      (Hostname.read_eq_ok_iff.mp hname)
  · intro m m' host host' h h'
    exact ((hparse m host).mp h).unique ((hparse m' host').mp h')
  · exact fun ip => Parser.value_parseAll_eq_ok_iff.trans
      IpAddress.parseWith_accepts_iff_isReadAlone

end NetLiteral
