import NetLiteral.Proofs.Kind
import NetLiteral.Proofs.Parser.Choice
import NetLiteral.Proofs.Reader.Progress

/-!
# Reported failures

Where every alternative fails, the failure that is reported is the first of those that got furthest:
of the kinds of a host, each run alone from the same place, and of the two versions of an endpoint
or a route, each of which has to be the whole text.
-/

namespace NetLiteral

open Failure (IsFurthest)

/-! ## Kinds of hosts -/

namespace Host

variable {m : Families} {c d : Cursor} {e : Failure}

/-- The readers of the chosen kinds, in the order in which they are tried. -/
def alternatives (m : Families) : List (Parser Host) :=
  (IpAddress.alternatives m).map (address <$> ·) ++ if m.name then [name <$> Hostname.parser] else []

theorem orderly_of_mem_alternatives : ∀ p ∈ alternatives m, p.Orderly := by
  simp only [alternatives, List.mem_append, List.mem_map, List.mem_ite_nil_right,
    List.mem_singleton]
  rintro p (⟨q, hq, rfl⟩ | ⟨-, rfl⟩)
  · exact (IpAddress.orderly_of_mem_alternatives q hq).map address
  · exact Hostname.parser_orderly.map name

/-- The versions of an address are tried in a choice of their own, as if they were alternatives of
the host like the name. -/
theorem eval_parseWith (m : Families) (c : Cursor) : (parseWith m).eval c =
    (Parser.choice ⟨.host, c.position, .empty⟩ (alternatives m)).eval c := by
  rw [parseWith, Parser.eval_bind_of_ok (Parser.eval_position c), alternatives]
  dsimp only
  by_cases hip : (m.v4 || m.v6) = true
  · rw [if_pos hip, List.singleton_append]
    exact Parser.eval_choice_group IpAddress.orderly_of_mem_alternatives
      (IpAddress.eval_parseWith m c) address
  · obtain ⟨h4, h6⟩ := Bool.or_eq_false_iff.mp (Bool.eq_false_iff.mpr hip)
    rw [if_neg hip, IpAddress.alternatives, h4, h6]
    rfl

theorem eval_parseWith_eq_error_iff : (parseWith m).eval c = (.error e, d) ↔
    d = c ∧ ∃ es, Parser.RefuseAs (alternatives m) c es ∧
      IsFurthest (⟨.host, c.position, .empty⟩ :: es) e := by
  rw [eval_parseWith]
  exact Parser.eval_choice_eq_error_iff orderly_of_mem_alternatives

end Host

/-! ## Whole texts -/

namespace TextForm

variable {α β : Type} [TextForm α] [TextForm β] {s : String} {e : Failure}

variable (α) in
/-- Reading a text as a whole fails as the reader does at its start, or at the first byte that the
reader leaves unread. -/
inductive FailsWhole (s : String) : Failure → Prop
  | reader {e d} (h : (parser : Parser α).eval (.ofString s) = (.error e, d)) : FailsWhole s e
  | trailing {a d b rest} (h : (parser : Parser α).eval (.ofString s) = (.ok a, d))
    (hrest : d.unread = b :: rest) : FailsWhole s ⟨literal α, d.position, .trailing⟩

theorem read_eq_error_iff : (read α s).value = .error e ↔ FailsWhole α s e := by
  rw [read]
  constructor
  · intro h
    rcases heval : (parser : Parser α).eval (.ofString s) with ⟨e' | a, d⟩
    · rw [Parser.value_parseAll_of_error heval] at h
      cases h
      exact .reader heval
    · rw [Parser.value_parseAll_of_ok heval] at h
      cases hunread : d.unread with
      | nil =>
        rw [Cursor.isAtEnd, hunread] at h
        cases h
      | cons b rest =>
        rw [Cursor.isAtEnd, hunread] at h
        cases h
        exact .trailing heval hunread
  · rintro (h | ⟨h, hrest⟩)
    · exact Parser.value_parseAll_of_error h
    · rw [Parser.value_parseAll_of_ok h, Cursor.isAtEnd, hrest]
      rfl

theorem readEither_eq_error_iff : (readEither α β s).value = .error e ↔
    ∃ e₁ e₂, FailsWhole α s e₁ ∧ FailsWhole β s e₂ ∧ e₁.furthest e₂ = e := by
  simp only [← read_eq_error_iff]
  constructor
  · intro h
    rw [readEither, Logged.value_bind] at h
    cases hα : (read α s).value with
    | ok a =>
      rw [hα] at h
      cases h
    | error e₁ =>
      rw [hα] at h
      dsimp only at h
      rw [Logged.value_bind] at h
      cases hβ : (read β s).value with
      | ok b =>
        rw [hβ] at h
        cases h
      | error e₂ =>
        rw [hβ] at h
        cases h
        exact ⟨e₁, e₂, rfl, rfl, rfl⟩
  · rintro ⟨e₁, e₂, h₁, h₂, rfl⟩
    exact readEither_of_errors h₁ h₂

end TextForm

theorem Kind.canonical_eq_error_iff {k : Kind} {s : String} {e : Failure} :
    (k.canonical s).value = .error e ↔ (k.read s).value = .error e := by
  rw [canonical_eq, Logged.value_bind, Logged.value_pure]
  cases (k.read s).value <;> simp [Except.map]

/-- A host is not read exactly where none of the chosen kinds is read alone. The failure is then the
first of those that got furthest among finding nothing and the failures of these kinds, however the
versions of an address are grouped. An endpoint or a route of either version is refused with the
failure of IPv4, unless that of IPv6 got further. -/
theorem alternatives_fail_as_furthest :
    (∀ m c, (Host.parseWith m).eval c =
      (Parser.choice ⟨.host, c.position, .empty⟩ (Host.alternatives m)).eval c) ∧
    (∀ m c e d, (Host.parseWith m).eval c = (.error e, d) ↔
      d = c ∧ ∃ es, Parser.RefuseAs (Host.alternatives m) c es ∧
        IsFurthest (⟨.host, c.position, .empty⟩ :: es) e) ∧
    (∀ s e, (Kind.endpoint.canonical s).value = .error e ↔
      ∃ e₄ e₆, TextForm.FailsWhole (Endpoint .v4) s e₄ ∧ TextForm.FailsWhole (Endpoint .v6) s e₆ ∧
        (e₄.Behind e₆ ∧ e = e₆ ∨ ¬e₄.Behind e₆ ∧ e = e₄)) ∧
    (∀ s e, (Kind.route.canonical s).value = .error e ↔
      ∃ e₄ e₆, TextForm.FailsWhole (Route .ipv4) s e₄ ∧ TextForm.FailsWhole (Route .ipv6) s e₆ ∧
        (e₄.Behind e₆ ∧ e = e₆ ∨ ¬e₄.Behind e₆ ∧ e = e₄)) := by
  refine ⟨Host.eval_parseWith, fun m c e d => Host.eval_parseWith_eq_error_iff, ?_, ?_⟩
  · intro s e
    simp only [← Failure.furthest_eq_iff]
    exact Kind.canonical_eq_error_iff.trans TextForm.readEither_eq_error_iff
  · intro s e
    simp only [← Failure.furthest_eq_iff]
    exact Kind.canonical_eq_error_iff.trans TextForm.readEither_eq_error_iff

end NetLiteral
