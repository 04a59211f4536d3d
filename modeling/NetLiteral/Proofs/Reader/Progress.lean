import NetLiteral.Proofs.Host
import NetLiteral.Proofs.Number
import NetLiteral.Proofs.Parser.Progress
import NetLiteral.Endpoint
import NetLiteral.Route

/-!
# Progress of the readers of literals

Every reader gives everything back when it fails and consumes something when it succeeds. The
readers of addresses, numbers and labels take one run of bytes; the others are put together from
them.
-/

open NetLiteral.Parser (Forward Advances Orderly)

namespace NetLiteral

/-! ## Runs -/

theorem Address.parser_orderly {f : Family} : (parser : Parser (Address f)).Orderly := by
  apply Orderly.of_run (m := f.isMember)
  intro c
  rw [parser_eval]
  cases hread : read? f (c.run f.isMember) with
  | none => exact .inr ⟨_, rfl, rfl⟩
  | some a =>
    refine .inl ⟨a, ?_, rfl⟩
    intro hempty
    rw [hempty, read?_nil] at hread
    cases hread

theorem Number.unsigned_orderly (literal : Literal) (lo hi : UInt32) :
    (unsigned literal lo hi).Orderly := by
  apply Orderly.of_run (m := Byte.isDigit)
  intro c
  rcases eval_unsigned_cases literal lo hi c with ⟨n, hne, _, heval⟩ | ⟨reason, heval⟩
  · exact .inl ⟨n, hne, heval⟩
  · exact .inr ⟨_, heval, rfl⟩

theorem Number.port_orderly : port.Orderly :=
  (unsigned_orderly .port 0 maxPort).map _

theorem PrefixLength.parser_orderly {f : Family} : (parser : Parser (PrefixLength f)).Orderly :=
  (Number.unsigned_orderly .prefixLength 0 _).map _

theorem Label.parser_orderly : parser.Orderly := by
  apply Orderly.of_run (m := Byte.isLabel)
  intro c
  rcases eval_parser_cases c with ⟨label, hrun, heval⟩ | ⟨reason, heval⟩
  · refine .inl ⟨label, ?_, by rw [heval, hrun]⟩
    obtain ⟨_, _, ⟨b, hhead, _⟩, _⟩ := isValid_iff.mp label.valid
    rw [hrun]
    intro hempty
    rw [hempty] at hhead
    cases hhead
  · exact .inr ⟨_, heval, rfl⟩

/-! ## Names -/

namespace Hostname

theorem labelPart_orderly : labelPart.Orderly :=
  Label.parser_orderly.mapFailure fun _ => rfl

theorem furtherLabels_forward (n : Nat) : (furtherLabels n).Forward := by
  induction n with
  | zero => exact .pure []
  | succ n ih =>
    apply Forward.bind (.eat rfl)
    intro dotted
    cases dotted with
    | false => exact .pure []
    | true => exact labelPart_orderly.forward.bind fun label => ih.bind fun labels => .pure _

theorem labelsAfterDots_forward : labelsAfterDots.Forward :=
  ⟨fun c => (furtherLabels_forward c.unread.length).reaches c,
    fun h => (furtherLabels_forward _).failure h⟩

theorem parser_orderly : parser.Orderly := by
  intro c
  rw [parser, Parser.eval_attempt, Parser.eval_bind_of_ok (Parser.eval_position c)]
  rcases labelPart_orderly c with ⟨label, d, hlabel, hreach, hlt⟩ | ⟨e, hlabel, hoffset⟩
  · rw [Parser.eval_bind_of_ok hlabel]
    rcases hlabels : labelsAfterDots.eval d with ⟨e | labels, d'⟩
    · obtain ⟨d'', hreach', hoffset⟩ := labelsAfterDots_forward.failure hlabels
      exact .inr ⟨e, by rw [Parser.eval_bind, hlabels], d'', hreach.trans hreach', hoffset⟩
    · have hreach' := labelsAfterDots_forward.reaches_of_eval hlabels
      rw [Parser.eval_bind_of_ok hlabels]
      by_cases hlength : (join (label :: labels)).length ≤ maxLength
      · rw [dif_pos hlength]
        exact .inl ⟨_, d', rfl, hreach.trans hreach', Nat.lt_of_lt_of_le hlt hreach'.position_le⟩
      · rw [dif_neg hlength]
        exact .inr ⟨_, rfl, c, .refl c, rfl⟩
  · exact .inr ⟨e, by rw [Parser.eval_bind, hlabel], hoffset⟩

end Hostname

/-! ## Endpoints and routes -/

namespace Endpoint

variable {v : IpVersion}

theorem addressPart_forward : (addressPart : Parser (Address v.family)).Forward := by
  cases v with
  | v4 => exact Address.parser_orderly.forward
  | v6 =>
    apply Forward.bind (.expect rfl _)
    intro _
    apply Address.parser_orderly.forward.bind
    intro a
    exact Forward.bind (.expect rfl _) fun _ => .pure a

theorem addressPart_advances : (addressPart : Parser (Address v.family)).Advances := by
  cases v with
  | v4 => exact Address.parser_orderly.advances
  | v6 =>
    apply Advances.bind (.expect _ _)
    intro _
    apply Address.parser_orderly.forward.bind
    intro a
    exact Forward.bind (.expect rfl _) fun _ => .pure a

theorem parser_orderly : (parser : Parser (Endpoint v)).Orderly := by
  have hrest (a : Address v.family) : (do
      Parser.expect Byte.colon .endpoint
      let port ← Number.port
      return ⟨a, port⟩ : Parser (Endpoint v)).Forward :=
    Forward.bind (.expect rfl _) fun _ => Number.port_orderly.forward.bind fun _ => .pure _
  apply Orderly.position
  intro start
  apply Orderly.onFailure
  exact .attempt (addressPart_forward.bind hrest) (addressPart_advances.bind hrest)

end Endpoint

theorem Route.parser_orderly {f : Family} : (parser : Parser (Route f)).Orderly := by
  have hrest (a : Address f) : (do
      Parser.expect Byte.slash .route
      let p ← PrefixLength.parser
      return of a p : Parser (Route f)).Forward :=
    Forward.bind (.expect rfl _) fun _ => PrefixLength.parser_orderly.forward.bind fun _ => .pure _
  apply Orderly.position
  intro start
  apply Orderly.onFailure
  exact .attempt (Address.parser_orderly.forward.bind hrest)
    (Address.parser_orderly.advances.bind hrest)

/-! ## Hosts -/

theorem IpAddress.orderly_of_mem_alternatives {m : Families} : ∀ p ∈ alternatives m, p.Orderly :=
  forall_mem_alternatives (Address.parser_orderly.map v4) (Address.parser_orderly.map v6)

theorem IpAddress.parseWith_orderly (m : Families) : (parseWith m).Orderly :=
  Orderly.choice orderly_of_mem_alternatives .host .empty

theorem Host.parseWith_orderly (m : Families) : (parseWith m).Orderly := by
  apply Orderly.choice
  simp only [List.mem_append, List.mem_ite_nil_right, List.mem_singleton]
  rintro p (⟨_, rfl⟩ | ⟨_, rfl⟩)
  · exact (IpAddress.parseWith_orderly m).map address
  · exact Hostname.parser_orderly.map name

end NetLiteral
