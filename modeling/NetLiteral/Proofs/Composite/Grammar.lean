import Mathlib.Data.List.Basic
import NetLiteral.Proofs.Bytes.Encoding
import NetLiteral.Proofs.Composite

/-!
# The grammar of endpoints and routes

A route is written as an address, a slash and a prefix length; an endpoint as an address, in
brackets if it is of version 6, a colon and a port. The parsers take the longest runs of bytes they
can, and yet read exactly these texts, because no separator may stand in the part before it. So a
text can be taken apart in one way only.
-/

namespace NetLiteral

open Numeral (Denotes)

variable {f : Family} {v : IpVersion}

/-! ## Parts of a text -/

/-- `s` is `opening`, the text `t` of an address, `separator`, and the digits `d` of a number. -/
structure Parts (opening separator s t d : String) (a : Address f) (n : Nat) : Prop where
  text_eq : s = opening ++ t ++ separator ++ d
  address : Address.read? f (Bytes.ofString t) = some a
  number : Denotes (Bytes.ofString d) n

namespace Parts

variable {opening separator s t t' d d' : String} {a a' : Address f} {n n' : Nat}

theorem ofString_eq (h : Parts opening separator s t d a n) :
    Bytes.ofString s = Bytes.ofString opening ++
      (Bytes.ofString t ++ (Bytes.ofString separator ++ Bytes.ofString d)) := by
  rw [h.text_eq]
  simp only [Bytes.ofString_append, List.append_assoc]

/-- Bytes of an address and bytes of a number are the bytes of texts. -/
theorem exists_iff : (∃ t d, Parts opening separator s t d a n) ↔
    ∃ t d : Bytes, Bytes.ofString s =
      Bytes.ofString opening ++ (t ++ (Bytes.ofString separator ++ d)) ∧
        Address.read? f t = some a ∧ Denotes d n := by
  constructor
  · rintro ⟨t, d, h⟩
    exact ⟨_, _, h.ofString_eq, h.address, h.number⟩
  · rintro ⟨t, d, htext, haddress, hnumber⟩
    have ht : Bytes.ofString (Bytes.toText t) = t := by
      apply Bytes.ofString_toText
      intro b hb
      exact Byte.isAscii_of_isMember (Address.isMember_of_read? haddress b hb)
    have hd : Bytes.ofString (Bytes.toText d) = d := Bytes.ofString_toText hnumber.isAscii
    refine ⟨Bytes.toText t, Bytes.toText d, ?_, by rwa [ht], by rwa [hd]⟩
    apply Bytes.ofString_injective
    simp only [Bytes.ofString_append, List.append_assoc, ht, hd, htext]

/-- Where a separator begins, the address before it has ended, and no such byte comes later. -/
theorem unique {x : UInt8} {tail : Bytes} (hseparator : Bytes.ofString separator = x :: tail)
    (hmember : f.isMember x = false) (hlater : ∀ b ∈ tail, b ≠ x) (hdigit : Byte.isDigit x = false)
    (h : Parts opening separator s t d a n) (h' : Parts opening separator s t' d' a' n') :
    t = t' ∧ d = d' ∧ a = a' ∧ n = n' := by
  have hbytes := h.ofString_eq.symm.trans h'.ofString_eq
  rw [List.append_cancel_left_eq, hseparator, List.cons_append, List.cons_append] at hbytes
  have hleft : x ∉ Bytes.ofString t := by
    intro hx
    rw [Address.isMember_of_read? h.address x hx] at hmember
    cases hmember
  have hright : x ∉ tail ++ Bytes.ofString d := by
    intro hx
    rcases List.mem_append.mp hx with hx | hx
    · exact hlater x hx rfl
    · rw [h.number.isDigit x hx] at hdigit
      cases hdigit
  obtain ⟨ht, -, hd⟩ := (List.append_cons_inj_of_notMem hleft hright).mp hbytes
  cases Bytes.ofString_injective ht
  cases Bytes.ofString_injective (List.append_cancel_left hd)
  exact ⟨rfl, rfl, Option.some.inj (h.address.symm.trans h'.address),
    h.number.value_eq.symm.trans h'.number.value_eq⟩

end Parts

/-! ## Routes -/

namespace Route

theorem parser_accepts_iff {text : Bytes} {r : Route f} :
    parser.Accepts text r ↔ ∃ t d a p, text = t ++ Byte.slash :: d ∧
      Address.read? f t = some a ∧ Denotes d p.len ∧ of a p = r := by
  constructor
  · rintro ⟨c, heval, hend⟩
    obtain ⟨a, p, c₁, c₂, haddress, hslash, hprefix, hr⟩ := eval_parser_eq_ok heval
    obtain ⟨hread, hpass⟩ := Address.parser_passes haddress
    obtain ⟨digits, hdigits, hpass'⟩ := PrefixLength.parser_passes hprefix
    have hunread := (hpass.trans (hslash.trans hpass')).1
    rw [hend, List.append_nil] at hunread
    exact ⟨_, digits, a, p, hunread, hread, hdigits, hr⟩
  · rintro ⟨t, d, a, p, rfl, ha, hp, rfl⟩
    exact (parser_reads_parts ha hp).accepts

theorem read_eq_ok_iff {s : String} {r : Route f} :
    (TextForm.read (Route f) s).value = .ok r ↔
      ∃ t d a n, Parts "" "/" s t d a n ∧ ∃ h : n ≤ f.bits, of a ⟨n, h⟩ = r := by
  refine Parser.value_parseAll_eq_ok_iff.trans (parser_accepts_iff.trans ?_)
  constructor
  · rintro ⟨t, d, a, p, htext, ha, hp, hr⟩
    have hparts : ∃ t d, Parts "" "/" s t d a p.len := Parts.exists_iff.mpr ⟨t, d, htext, ha, hp⟩
    obtain ⟨t', d', hparts⟩ := hparts
    exact ⟨t', d', a, p.len, hparts, p.len_le, hr⟩
  · rintro ⟨t, d, a, n, hparts, hn, hr⟩
    obtain ⟨t', d', htext, ha, hp⟩ := Parts.exists_iff.mp ⟨t, d, hparts⟩
    exact ⟨t', d', a, ⟨n, hn⟩, htext, ha, hp, hr⟩

theorem parts_unique {s t t' d d' : String} {a a' : Address f} {n n' : Nat}
    (h : Parts "" "/" s t d a n) (h' : Parts "" "/" s t' d' a' n') :
    t = t' ∧ d = d' ∧ a = a' ∧ n = n' := by
  have hseparator : Bytes.ofString "/" = [Byte.slash] := rfl
  exact Parts.unique hseparator isMember_slash (by simp) rfl h h'

end Route

/-! ## Endpoints -/

namespace Endpoint

/-- What stands before the address. -/
def opening : IpVersion → String
  | .v4 => ""
  | .v6 => "["

/-- What stands between the address and the port. -/
def separator : IpVersion → String
  | .v4 => ":"
  | .v6 => "]:"

theorem enclosed_append (t d : Bytes) :
    enclosed v t ++ Byte.colon :: d =
      Bytes.ofString (opening v) ++ (t ++ (Bytes.ofString (separator v) ++ d)) := by
  cases v with
  | v4 => rfl
  | v6 =>
    have hbracketed : IpVersion.v6.isBracketed = true := rfl
    have hopening : Bytes.ofString (opening .v6) = [Byte.openBracket] := rfl
    have hseparator : Bytes.ofString (separator .v6) = [Byte.closeBracket, Byte.colon] := rfl
    rw [enclosed, if_pos hbracketed, hopening, hseparator]
    simp only [List.cons_append, List.append_assoc, List.nil_append]

theorem parser_accepts_iff {text : Bytes} {e : Endpoint v} :
    parser.Accepts text e ↔ ∃ t d, text = enclosed v t ++ Byte.colon :: d ∧
      Address.read? v.family t = some e.address ∧ Denotes d e.port.toNat := by
  constructor
  · rintro ⟨c, heval, hend⟩
    obtain ⟨c₁, c₂, haddress, hcolon, hport⟩ := eval_parser_eq_ok heval
    obtain ⟨t, hread, hpass⟩ := addressPart_passes haddress
    obtain ⟨digits, hdigits, hpass'⟩ := Number.port_passes hport
    have hunread := (hpass.trans (hcolon.trans hpass')).1
    rw [hend, List.append_nil] at hunread
    exact ⟨t, digits, hunread, hread, hdigits⟩
  · rintro ⟨t, d, rfl, ha, hport⟩
    exact (parser_reads_parts ha hport).accepts

theorem read_eq_ok_iff {s : String} {e : Endpoint v} :
    (TextForm.read (Endpoint v) s).value = .ok e ↔
      ∃ t d a n, Parts (opening v) (separator v) s t d a n ∧ n ≤ 65535 ∧
        ⟨a, UInt16.ofNat n⟩ = e := by
  refine Parser.value_parseAll_eq_ok_iff.trans (parser_accepts_iff.trans ?_)
  simp only [enclosed_append]
  constructor
  · rintro ⟨t, d, htext, ha, hport⟩
    obtain ⟨t', d', hparts⟩ := Parts.exists_iff.mpr ⟨t, d, htext, ha, hport⟩
    refine ⟨t', d', e.address, e.port.toNat, hparts, Nat.le_of_lt_succ e.port.toNat_lt, ?_⟩
    rw [UInt16.ofNat_toNat]
  · rintro ⟨t, d, a, n, hparts, hn, rfl⟩
    obtain ⟨t', d', htext, ha, hport⟩ := Parts.exists_iff.mp ⟨t, d, hparts⟩
    refine ⟨t', d', htext, ha, ?_⟩
    rwa [UInt16.toNat_ofNat_of_lt' (Nat.lt_succ_of_le hn)]

theorem parts_unique {s t t' d d' : String} {a a' : Address v.family} {n n' : Nat}
    (h : Parts (opening v) (separator v) s t d a n)
    (h' : Parts (opening v) (separator v) s t' d' a' n') :
    t = t' ∧ d = d' ∧ a = a' ∧ n = n' := by
  cases v with
  | v4 =>
    have hseparator : Bytes.ofString (separator .v4) = [Byte.colon] := rfl
    exact Parts.unique hseparator rfl (by simp) rfl h h'
  | v6 =>
    -- An IPv6 address has colons of its own; it is the bracket that ends it.
    have hseparator : Bytes.ofString (separator .v6) = [Byte.closeBracket, Byte.colon] := rfl
    have hne : Byte.colon ≠ Byte.closeBracket := by decide
    exact Parts.unique hseparator rfl (List.forall_mem_singleton.mpr hne) rfl h h'

end Endpoint

/-- A whole text is read as a route or an endpoint exactly if it has the parts of one, with a number
in range, and then as the value made of these parts. It has them in one way only, and clearing the
host bits of a route's address once or twice makes no difference. -/
theorem composites_read_by_parts :
    (∀ f s (r : Route f), (TextForm.read (Route f) s).value = .ok r ↔
      ∃ t d a n, Parts "" "/" s t d a n ∧ ∃ h : n ≤ f.bits, Route.of a ⟨n, h⟩ = r) ∧
    (∀ f s t t' d d' (a a' : Address f) n n', Parts "" "/" s t d a n →
      Parts "" "/" s t' d' a' n' → t = t' ∧ d = d' ∧ a = a' ∧ n = n') ∧
    (∀ f (a : Address f) p, Route.of (a.network p) p = Route.of a p) ∧
    (∀ v s (e : Endpoint v), (TextForm.read (Endpoint v) s).value = .ok e ↔
      ∃ t d a n, Parts (Endpoint.opening v) (Endpoint.separator v) s t d a n ∧ n ≤ 65535 ∧
        ⟨a, UInt16.ofNat n⟩ = e) ∧
    (∀ v s t t' d d' (a a' : Address v.family) n n',
      Parts (Endpoint.opening v) (Endpoint.separator v) s t d a n →
        Parts (Endpoint.opening v) (Endpoint.separator v) s t' d' a' n' →
          t = t' ∧ d = d' ∧ a = a' ∧ n = n') := by
  refine ⟨fun f s r => Route.read_eq_ok_iff, ?_, ?_, fun v s e => Endpoint.read_eq_ok_iff, ?_⟩
  · intro f s t t' d d' a a' n n' h h'
    exact Route.parts_unique h h'
  · intro f a p
    exact Route.ext_address (a.network_network p) rfl
  · intro v s t t' d d' a a' n n' h h'
    exact Endpoint.parts_unique h h'

end NetLiteral
