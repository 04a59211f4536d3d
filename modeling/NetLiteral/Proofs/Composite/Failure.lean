import NetLiteral.Proofs.Composite
import NetLiteral.Proofs.Number.Range

/-!
# The first wrong part of an endpoint or a route

An endpoint and a route are lists of parts: separators, an address and a number. Reading one of them
fails exactly if some part does not match after those before it, and the failure is the one of that
part, at the place where the part should begin.
-/

namespace NetLiteral

open Numeral (Denotes)

/-! ## One part -/

/-- What an endpoint or a route is made of. -/
inductive Part
  /-- A single byte, missed as part of a literal. -/
  | separator (b : UInt8) (literal : Literal)
  | address (f : Family)
  /-- A number up to a bound. -/
  | number (literal : Literal) (max : Nat)

namespace Part

/-- The part stands between two places of a text. An address and a number end where no further byte
of their class follows. -/
inductive Matches : Part → Cursor → Cursor → Prop
  | separator {b : UInt8} {literal : Literal} {c d : Cursor} (h : c.Passes [b] d) :
    Matches (.separator b literal) c d
  | address {f : Family} {text : Bytes} {a : Address f} {c d : Cursor} (h : c.Passes text d)
    (hends : EndsRun f.isMember d.unread) (hread : Address.read? f text = some a) :
    Matches (.address f) c d
  | number {literal : Literal} {max n : Nat} {digits : Bytes} {c d : Cursor}
    (h : c.Passes digits d) (hends : EndsRun Byte.isDigit d.unread) (hdigits : Denotes digits n)
    (hn : n ≤ max) : Matches (.number literal max) c d

/-- The part does not stand at a place of a text, and the failure says why. -/
inductive Fails : Part → Cursor → Failure → Prop
  | separator {b : UInt8} {literal : Literal} {c : Cursor} (h : c.peek ≠ some b) :
    Fails (.separator b literal) c ⟨literal, c.position, .expected (Char.ofUInt8 b)⟩
  | noAddress {f : Family} {c : Cursor} (h : EndsRun f.isMember c.unread) :
    Fails (.address f) c ⟨f.literal, c.position, .empty⟩
  | badAddress {f : Family} {text : Bytes} {c d : Cursor} (h : c.Passes text d) (hne : text ≠ [])
    (hmember : ∀ b ∈ text, f.isMember b = true) (hends : EndsRun f.isMember d.unread)
    (hread : Address.read? f text = none) :
    Fails (.address f) c ⟨f.literal, c.position, .malformed⟩
  | noNumber {literal : Literal} {max : Nat} {c : Cursor} (h : EndsRun Byte.isDigit c.unread) :
    Fails (.number literal max) c ⟨literal, c.position, .empty⟩
  | bigNumber {literal : Literal} {max n : Nat} {digits : Bytes} {c d : Cursor}
    (h : c.Passes digits d) (hends : EndsRun Byte.isDigit d.unread) (hdigits : Denotes digits n)
    (hn : max < n) : Fails (.number literal max) c ⟨literal, c.position, .outOfRange⟩

theorem matches_or_fails (part : Part) (c : Cursor) :
    (∃ d, part.Matches c d) ∨ ∃ e, part.Fails c e := by
  cases part with
  | separator b literal =>
    rcases c.eat?_cases b with ⟨-, d, hd, -⟩ | ⟨hpeek, -⟩
    · exact .inl ⟨d, .separator (Cursor.passes_of_eat? hd)⟩
    · exact .inr ⟨_, .separator hpeek⟩
  | address f =>
    have hpass := c.passes_advance_run f.isMember
    have hends := c.endsRun_advance_run fun _ => Byte.isAscii_of_isMember (f := f)
    cases hread : Address.read? f (c.run f.isMember) with
    | some a => exact .inl ⟨_, .address hpass hends hread⟩
    | none =>
      by_cases hempty : c.run f.isMember = []
      · rw [hempty] at hends
        exact .inr ⟨_, .noAddress hends⟩
      · exact .inr ⟨_, .badAddress hpass hempty (fun b => Cursor.isMember_of_mem_run) hends hread⟩
  | number literal max =>
    have hpass := c.passes_advance_run Byte.isDigit
    have hends := c.endsRun_advance_run fun _ => Byte.isAscii_of_isDigit
    by_cases hempty : c.run Byte.isDigit = []
    · rw [hempty] at hends
      exact .inr ⟨_, .noNumber hends⟩
    · have hdigits : Denotes (c.run Byte.isDigit) (Numeral.ofDecimal (c.run Byte.isDigit)) :=
        ⟨hempty, fun b => Cursor.isMember_of_mem_run, rfl⟩
      rcases Nat.lt_or_ge max (Numeral.ofDecimal (c.run Byte.isDigit)) with hn | hn
      · exact .inr ⟨_, .bigNumber hpass hends hdigits hn⟩
      · exact .inl ⟨_, .number hpass hends hdigits hn⟩

end Part

/-! ## Lists of parts -/

/-- The parts stand one after another between two places. -/
inductive AllMatch : List Part → Cursor → Cursor → Prop
  | nil {c : Cursor} : AllMatch [] c c
  | cons {part : Part} {parts : List Part} {c c' d : Cursor} (h : part.Matches c c')
    (hlater : AllMatch parts c' d) : AllMatch (part :: parts) c d

/-- The first part that does not match fails, after those before it. -/
inductive FirstWrong : List Part → Cursor → Failure → Prop
  | here {part : Part} {parts : List Part} {c : Cursor} {e : Failure} (h : part.Fails c e) :
    FirstWrong (part :: parts) c e
  | later {part : Part} {parts : List Part} {c d : Cursor} {e : Failure} (h : part.Matches c d)
    (hlater : FirstWrong parts d e) : FirstWrong (part :: parts) c e

variable {ps qs : List Part} {c d : Cursor} {e : Failure}

theorem allMatch_or_firstWrong (parts : List Part) (c : Cursor) :
    (∃ d, AllMatch parts c d) ∨ ∃ e, FirstWrong parts c e := by
  induction parts generalizing c with
  | nil => exact .inl ⟨c, .nil⟩
  | cons part parts ih =>
    rcases part.matches_or_fails c with ⟨c', hmatch⟩ | ⟨e, hfail⟩
    · rcases ih c' with ⟨d, hall⟩ | ⟨e, hwrong⟩
      · exact .inl ⟨d, .cons hmatch hall⟩
      · exact .inr ⟨e, .later hmatch hwrong⟩
    · exact .inr ⟨e, .here hfail⟩

theorem AllMatch.of_append (h : AllMatch (ps ++ qs) c d) :
    ∃ c', AllMatch ps c c' ∧ AllMatch qs c' d := by
  induction ps generalizing c with
  | nil => exact ⟨c, .nil, h⟩
  | cons part ps ih =>
    cases h with
    | cons hmatch hall =>
      obtain ⟨c', hps, hqs⟩ := ih hall
      exact ⟨c', .cons hmatch hps, hqs⟩

theorem FirstWrong.of_append (h : FirstWrong (ps ++ qs) c e) :
    FirstWrong ps c e ∨ ∃ d, AllMatch ps c d ∧ FirstWrong qs d e := by
  induction ps generalizing c with
  | nil => exact .inr ⟨c, .nil, h⟩
  | cons part ps ih =>
    cases h with
    | here hfail => exact .inl (.here hfail)
    | later hmatch hwrong =>
      rcases ih hwrong with hps | ⟨d, hps, hqs⟩
      · exact .inl (.later hmatch hps)
      · exact .inr ⟨d, .cons hmatch hps, hqs⟩

/-! ## Parsers of parts -/

namespace Parser

variable {α β : Type} {p : Parser α} {f : α → Parser β}

/-- `p` gives a value where all parts match and stops after them, and fails where some part is the
first wrong one, with the failure of that part. -/
structure ReadsParts (p : Parser α) (ps : List Part) : Prop where
  matched : ∀ {c d}, AllMatch ps c d → ∃ a, p.eval c = (.ok a, d)
  wrong : ∀ {c e}, FirstWrong ps c e → ∃ d, p.eval c = (.error e, d)

namespace ReadsParts

theorem pure (a : α) : (Pure.pure a : Parser α).ReadsParts [] := by
  constructor
  · intro c d h
    cases h
    exact ⟨a, rfl⟩
  · intro c e h
    cases h

/-- Of a single part it is enough to say what happens where it matches and where it fails. -/
theorem of_part {part : Part} (hmatched : ∀ {c d}, part.Matches c d → ∃ a, p.eval c = (.ok a, d))
    (hfails : ∀ {c e}, part.Fails c e → ∃ d, p.eval c = (.error e, d)) : p.ReadsParts [part] := by
  constructor
  · intro c d h
    cases h with
    | cons hmatch hnil =>
      cases hnil
      exact hmatched hmatch
  · intro c e h
    cases h with
    | here hfail => exact hfails hfail
    | later hmatch hnil => cases hnil

theorem bind (hp : p.ReadsParts ps) (hf : ∀ a, (f a).ReadsParts qs) :
    (p >>= f).ReadsParts (ps ++ qs) := by
  constructor
  · intro c d h
    obtain ⟨c', hps, hqs⟩ := h.of_append
    obtain ⟨a, ha⟩ := hp.matched hps
    rw [eval_bind_of_ok ha]
    exact (hf a).matched hqs
  · intro c e h
    rcases h.of_append with hps | ⟨d, hps, hqs⟩
    · obtain ⟨d, hd⟩ := hp.wrong hps
      exact ⟨d, by rw [eval_bind, hd]⟩
    · obtain ⟨a, ha⟩ := hp.matched hps
      rw [eval_bind_of_ok ha]
      exact (hf a).wrong hqs

theorem expect (b : UInt8) (literal : Literal) :
    (Parser.expect b literal).ReadsParts [.separator b literal] := by
  apply of_part
  · intro c d h
    cases h with
    | separator hpass => exact ⟨(), by rw [eval_expect, Cursor.eat?_of_passes hpass]⟩
  · intro c e h
    cases h with
    | separator hpeek =>
      rcases c.eat?_cases b with ⟨hb, -⟩ | ⟨-, hnone⟩
      · exact absurd hb hpeek
      · exact ⟨c, by rw [eval_expect, hnone]⟩

theorem address {f : Family} : (Address.parser : Parser (Address f)).ReadsParts [.address f] := by
  apply of_part
  · intro c d h
    cases h with
    | @address _ _ a _ _ hpass hends hread =>
      have heval := Address.parser_reads hread c.consumed d.unread hends
      rw [← hpass.left_eq, ← hpass.right_eq] at heval
      exact ⟨a, heval⟩
  · intro c e h
    cases h with
    | noAddress hends =>
      have hrun := Cursor.run_eq_nil hends
      exact ⟨c, Address.parser_eval_eq_error_iff.mpr
        ⟨by rw [hrun, Address.read?_nil], rfl, by rw [if_pos hrun]⟩⟩
    | @badAddress _ text _ d hpass hne hmember hends hread =>
      have hclass : ∀ b ∈ text, Bytes.isAscii b = true ∧ f.isMember b = true := fun b hb =>
        ⟨Byte.isAscii_of_isMember (hmember b hb), hmember b hb⟩
      have hrun : Cursor.run ⟨c.consumed, text ++ d.unread⟩ f.isMember = text :=
        Cursor.run_append hclass hends
      rw [← hpass.left_eq] at hrun
      exact ⟨c, Address.parser_eval_eq_error_iff.mpr
        ⟨by rw [hrun, hread], rfl, by rw [hrun, if_neg hne]⟩⟩

theorem number {literal : Literal} {max : Nat} {value : α → Nat}
    (h : p.ReadsRange literal 0 max value) : p.ReadsParts [.number literal max] := by
  apply of_part
  · intro c d hmatch
    cases hmatch with
    | number hpass hends hdigits hn =>
      obtain ⟨a, heval, -⟩ := h.inRange c.consumed hdigits hends ⟨Nat.zero_le _, hn⟩
      rw [← hpass.left_eq, ← hpass.right_eq] at heval
      exact ⟨a, heval⟩
  · intro c e hfail
    cases hfail with
    | noNumber hends => exact ⟨c, h.empty c.consumed hends⟩
    | bigNumber hpass hends hdigits hn =>
      have heval := h.outOfRange c.consumed hdigits hends fun hle => Nat.not_le.mpr hn hle.2
      rw [← hpass.left_eq] at heval
      exact ⟨c, heval⟩

/-- An attempt gives everything back where a part is wrong. -/
theorem attempt_eq_ok_iff (h : p.ReadsParts ps) :
    (∃ a, p.attempt.eval c = (.ok a, d)) ↔ AllMatch ps c d := by
  constructor
  · rintro ⟨a, ha⟩
    have ha := eval_attempt_eq_ok ha
    rcases allMatch_or_firstWrong ps c with ⟨d', hall⟩ | ⟨e, hwrong⟩
    · obtain ⟨a', ha'⟩ := h.matched hall
      rw [ha] at ha'
      cases ha'
      exact hall
    · obtain ⟨d', hd'⟩ := h.wrong hwrong
      rw [ha] at hd'
      cases hd'
  · intro hall
    obtain ⟨a, ha⟩ := h.matched hall
    exact ⟨a, eval_attempt_of_ok ha⟩

theorem attempt_eq_error_iff (h : p.ReadsParts ps) :
    p.attempt.eval c = (.error e, d) ↔ d = c ∧ FirstWrong ps c e := by
  constructor
  · intro herror
    rcases allMatch_or_firstWrong ps c with ⟨d', hall⟩ | ⟨e', hwrong⟩
    · obtain ⟨a, ha⟩ := h.matched hall
      rw [eval_attempt_of_ok ha] at herror
      cases herror
    · obtain ⟨d', hd'⟩ := h.wrong hwrong
      rw [eval_attempt, hd'] at herror
      cases herror
      exact ⟨rfl, hwrong⟩
  · rintro ⟨rfl, hwrong⟩
    obtain ⟨d', hd'⟩ := h.wrong hwrong
    rw [eval_attempt, hd']

end ReadsParts

end Parser

/-! ## Endpoints and routes -/

open NetLiteral.Parser (ReadsParts)

namespace Endpoint

variable {v : IpVersion} {c d : Cursor}

/-- The parts of an endpoint up to its port. -/
def addressParts : IpVersion → List Part
  | .v4 => [.address .ipv4]
  | .v6 => [.separator Byte.openBracket .endpoint, .address .ipv6,
      .separator Byte.closeBracket .endpoint]

def parts (v : IpVersion) : List Part :=
  addressParts v ++ [.separator Byte.colon .endpoint, .number .port 65535]

theorem addressPart_readsParts :
    (addressPart : Parser (Address v.family)).ReadsParts (addressParts v) := by
  cases v with
  | v4 => exact .address
  | v6 =>
    apply (ReadsParts.expect Byte.openBracket .endpoint).bind
    intro _
    apply ReadsParts.address.bind
    intro a
    exact (ReadsParts.expect Byte.closeBracket .endpoint).bind fun _ => .pure a

theorem readsParts : (do
    let a ← addressPart
    Parser.expect Byte.colon .endpoint
    let port ← Number.port
    return ⟨a, port⟩ : Parser (Endpoint v)).ReadsParts (parts v) := by
  apply addressPart_readsParts.bind
  intro a
  apply (ReadsParts.expect Byte.colon .endpoint).bind
  intro _
  exact (ReadsParts.number Number.port_readsRange).bind fun port => .pure _

theorem eval_parser_eq_ok_iff :
    (∃ e : Endpoint v, parser.eval c = (.ok e, d)) ↔ AllMatch (parts v) c d := by
  simp only [parser, Parser.eval_bind_of_ok (Parser.eval_position c), Parser.eval_onFailure]
  exact readsParts.attempt_eq_ok_iff

theorem eval_parser_eq_error_iff {e : Failure} :
    (parser : Parser (Endpoint v)).eval c = (.error e, d) ↔ d = c ∧ FirstWrong (parts v) c e := by
  rw [parser, Parser.eval_bind_of_ok (Parser.eval_position c), Parser.eval_onFailure]
  exact readsParts.attempt_eq_error_iff

end Endpoint

namespace Route

variable {f : Family} {c d : Cursor}

def parts (f : Family) : List Part :=
  [.address f, .separator Byte.slash .route, .number .prefixLength f.bits]

theorem readsParts : (do
    let a ← Address.parser
    Parser.expect Byte.slash .route
    let p ← PrefixLength.parser
    return of a p : Parser (Route f)).ReadsParts (parts f) := by
  apply ReadsParts.address.bind
  intro a
  apply (ReadsParts.expect Byte.slash .route).bind
  intro _
  exact (ReadsParts.number (PrefixLength.parser_readsRange f)).bind fun p => .pure _

theorem eval_parser_eq_ok_iff :
    (∃ r : Route f, parser.eval c = (.ok r, d)) ↔ AllMatch (parts f) c d := by
  simp only [parser, Parser.eval_bind_of_ok (Parser.eval_position c), Parser.eval_onFailure]
  exact readsParts.attempt_eq_ok_iff

theorem eval_parser_eq_error_iff {e : Failure} :
    (parser : Parser (Route f)).eval c = (.error e, d) ↔ d = c ∧ FirstWrong (parts f) c e := by
  rw [parser, Parser.eval_bind_of_ok (Parser.eval_position c), Parser.eval_onFailure]
  exact readsParts.attempt_eq_error_iff

end Route

/-- An endpoint or a route is read exactly where all its parts match. Elsewhere reading it consumes
nothing and fails exactly as the first of its parts that does not match, where that part should
begin. -/
theorem composites_fail_at_first_wrong_part :
    (∀ v c d, (∃ e : Endpoint v, Endpoint.parser.eval c = (.ok e, d)) ↔
      AllMatch (Endpoint.parts v) c d) ∧
    (∀ v c e d, (Endpoint.parser : Parser (Endpoint v)).eval c = (.error e, d) ↔
      d = c ∧ FirstWrong (Endpoint.parts v) c e) ∧
    (∀ f c d, (∃ r : Route f, Route.parser.eval c = (.ok r, d)) ↔ AllMatch (Route.parts f) c d) ∧
    ∀ f c e d, (Route.parser : Parser (Route f)).eval c = (.error e, d) ↔
      d = c ∧ FirstWrong (Route.parts f) c e :=
  ⟨fun _ _ _ => Endpoint.eval_parser_eq_ok_iff, fun _ _ _ _ => Endpoint.eval_parser_eq_error_iff,
    fun _ _ _ => Route.eval_parser_eq_ok_iff, fun _ _ _ _ => Route.eval_parser_eq_error_iff⟩

end NetLiteral
