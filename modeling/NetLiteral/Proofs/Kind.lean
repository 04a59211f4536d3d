import NetLiteral.Kind
import NetLiteral.Proofs.RoundTrip

/-!
# Canonical texts

A kind of text denotes values of one type, or of one of two. The canonical text of what a text
denotes denotes the same value, so it is its own canonical text, and two texts have one canonical
text exactly if they denote one value. For the kinds of two types this rests on no text being read
as both.
-/

namespace NetLiteral

/-! ## Texts of one version -/

theorem Endpoint.not_v4_of_v6 {c d d' : Cursor} {e : Endpoint .v6} {e' : Endpoint .v4}
    (h6 : parser.eval c = (.ok e, d)) : parser.eval c ≠ (.ok e', d') := by
  intro h4
  obtain ⟨_, _, haddress6, _⟩ := eval_parser_eq_ok h6
  obtain ⟨_, _, haddress4, _⟩ := eval_parser_eq_ok h4
  -- The bracket that the IPv6 form begins with is no byte of an IPv4 address.
  obtain ⟨_, _, hopen, _⟩ := Parser.eval_bind_eq_ok haddress6
  have hbracket := (Parser.passes_of_eval_expect hopen).1
  have hrun : c.run Byte.isIpv4 = [] := by
    rw [Cursor.run, hbracket]
    rfl
  have hread := (Address.parser_passes (f := .ipv4) haddress4).1
  rw [Family.isMember, hrun, Address.read?_nil] at hread
  cases hread

theorem Route.not_ipv4_of_ipv6 {c d d' : Cursor} {r : Route .ipv6} {r' : Route .ipv4}
    (h6 : parser.eval c = (.ok r, d)) : parser.eval c ≠ (.ok r', d') := by
  intro h4
  obtain ⟨_, _, c₁, _, haddress6, hslash, _⟩ := eval_parser_eq_ok h6
  obtain ⟨_, _, _, _, haddress4, _⟩ := eval_parser_eq_ok h4
  -- The IPv6 address ends before the slash, and no dot stands before it.
  obtain ⟨hread, hunread, _⟩ := Address.parser_passes haddress6
  have hends : EndsRun Byte.isLiteral c₁.unread := by
    rw [hslash.1]
    exact EndsRun.cons_iff.mpr rfl
  obtain ⟨_, hfail⟩ : (Address.parser : Parser (Address .ipv4)).Refuses
      ⟨c.consumed, c.run Byte.isIpv6 ++ c₁.unread⟩ := Address.ipv4_refuses_ipv6 hread hends
  rw [Family.isMember] at hunread
  rw [← hunread] at hfail
  cases hfail.symm.trans haddress4

namespace TextForm

variable {α β : Type} [TextForm α] [TextForm β] {s : String}

variable (α β) in
/-- No text is read both as a value of one type and as a value of another one. -/
def Disjoint : Prop :=
  ∀ (s : String) (a : α) (b : β), (read α s).value = .ok a → (read β s).value ≠ .ok b

theorem Disjoint.of_eval
    (h : ∀ {c d d' : Cursor} {a : α} {b : β},
      parser.eval c = (.ok a, d) → parser.eval c = (.ok b, d') → False) : Disjoint α β := by
  intro s a b hα hβ
  obtain ⟨_, hevalα, _⟩ := Parser.value_parseAll_eq_ok_iff.mp hα
  obtain ⟨_, hevalβ, _⟩ := Parser.value_parseAll_eq_ok_iff.mp hβ
  exact h hevalα hevalβ

theorem readEither_eq_inl_iff {a : α} :
    (readEither α β s).value = .ok (.inl a) ↔ (read α s).value = .ok a := by
  rw [readEither, Logged.value_bind]
  cases (read α s).value with
  | ok a' => simp
  | error e₁ =>
    rw [Logged.value_bind]
    cases (read β s).value <;> simp

/-- Trying a disjoint type first hides no value of the second one. -/
theorem readEither_eq_inr_iff (h : Disjoint α β) {b : β} :
    (readEither α β s).value = .ok (.inr b) ↔ (read β s).value = .ok b := by
  rw [readEither, Logged.value_bind]
  cases hα : (read α s).value with
  | ok a => simp [h s a b hα]
  | error e₁ =>
    rw [Logged.value_bind]
    cases (read β s).value <;> simp

theorem readEither_of_errors {e₁ e₂ : Failure} (hα : (read α s).value = .error e₁)
    (hβ : (read β s).value = .error e₂) :
    (readEither α β s).value = .error (e₁.furthest e₂) := by
  rw [readEither, Logged.value_bind, hα, Logged.value_bind, hβ, Logged.value_pure]

end TextForm

theorem Endpoint.disjoint : TextForm.Disjoint (Endpoint .v4) (Endpoint .v6) :=
  .of_eval fun h4 h6 => not_v4_of_v6 h6 h4

theorem Route.disjoint : TextForm.Disjoint (Route .ipv4) (Route .ipv6) :=
  .of_eval fun h4 h6 => not_ipv4_of_ipv6 h6 h4

/-! ## Kinds -/

namespace Kind

variable {k : Kind} {s c : String}

/-- The values that texts of a kind denote. -/
def Value : Kind → Type
  | ipv4 => Address .ipv4
  | ipv6 => Address .ipv6
  | ethernet => Address .ethernet
  | ip => IpAddress
  | hostname => Hostname
  | host => Host
  | endpoint => Endpoint .v4 ⊕ Endpoint .v6
  | route => Route .ipv4 ⊕ Route .ipv6
  | prefix4 => PrefixLength .ipv4
  | prefix6 => PrefixLength .ipv6

def read : (k : Kind) → String → Logged (Except Failure k.Value)
  | ipv4 => TextForm.read (Address .ipv4)
  | ipv6 => TextForm.read (Address .ipv6)
  | ethernet => TextForm.read (Address .ethernet)
  | ip => TextForm.read IpAddress
  | hostname => TextForm.read Hostname
  | host => TextForm.read Host
  | endpoint => TextForm.readEither (Endpoint .v4) (Endpoint .v6)
  | route => TextForm.readEither (Route .ipv4) (Route .ipv6)
  | prefix4 => TextForm.read (PrefixLength .ipv4)
  | prefix6 => TextForm.read (PrefixLength .ipv6)

def text : (k : Kind) → k.Value → String
  | ipv4 => TextForm.text (α := Address .ipv4)
  | ipv6 => TextForm.text (α := Address .ipv6)
  | ethernet => TextForm.text (α := Address .ethernet)
  | ip => TextForm.text (α := IpAddress)
  | hostname => TextForm.text (α := Hostname)
  | host => TextForm.text (α := Host)
  | endpoint => Sum.elim (TextForm.text (α := Endpoint .v4)) (TextForm.text (α := Endpoint .v6))
  | route => Sum.elim (TextForm.text (α := Route .ipv4)) (TextForm.text (α := Route .ipv6))
  | prefix4 => TextForm.text (α := PrefixLength .ipv4)
  | prefix6 => TextForm.text (α := PrefixLength .ipv6)

theorem canonical_eq (k : Kind) (s : String) :
    k.canonical s = do return (← k.read s).map k.text := by
  cases k <;> rfl

theorem canonical_eq_ok_iff :
    (k.canonical s).value = .ok c ↔ ∃ v, (k.read s).value = .ok v ∧ k.text v = c := by
  rw [canonical_eq, Logged.value_bind, Logged.value_pure]
  cases (k.read s).value <;> simp [Except.map]

/-- The text of a value is read as that value, also where another type is tried first. -/
theorem read_text (k : Kind) (v : k.Value) : (k.read (k.text v)).value = .ok v := by
  cases k with
  | ipv4 => exact Address.roundTrips.read v
  | ipv6 => exact Address.roundTrips.read v
  | ethernet => exact Address.roundTrips.read v
  | ip => exact IpAddress.roundTrips.read v
  | hostname => exact Hostname.roundTrips.read v
  | host => exact Host.roundTrips.read v
  | endpoint =>
    cases v with
    | inl e => exact TextForm.readEither_eq_inl_iff.mpr (Endpoint.roundTrips.read e)
    | inr e =>
      apply (TextForm.readEither_eq_inr_iff Endpoint.disjoint).mpr
      exact Endpoint.roundTrips.read e
  | route =>
    cases v with
    | inl r => exact TextForm.readEither_eq_inl_iff.mpr (Route.roundTrips.read r)
    | inr r =>
      apply (TextForm.readEither_eq_inr_iff Route.disjoint).mpr
      exact Route.roundTrips.read r
  | prefix4 => exact PrefixLength.roundTrips.read v
  | prefix6 => exact PrefixLength.roundTrips.read v

theorem text_injective {v w : k.Value} (h : k.text v = k.text w) : v = w := by
  have hread := k.read_text w
  rw [← h, k.read_text v] at hread
  exact Except.ok.inj hread

/-- The text of every value is canonical, a canonical text is its own canonical text, and two texts
have one canonical text exactly if they denote one value. Where two versions are tried, no text is
of both, so the first one never hides the second. -/
theorem canonical_texts_classify :
    (∀ (k : Kind) (v : k.Value), (k.canonical (k.text v)).value = .ok (k.text v)) ∧
    (∀ (k : Kind) (s c : String), (k.canonical s).value = .ok c → (k.canonical c).value = .ok c) ∧
    (∀ (k : Kind) (s t c d : String), (k.canonical s).value = .ok c →
      (k.canonical t).value = .ok d →
        (c = d ↔ ∃ v, (k.read s).value = .ok v ∧ (k.read t).value = .ok v)) ∧
    TextForm.Disjoint (Endpoint .v4) (Endpoint .v6) ∧
    TextForm.Disjoint (Route .ipv4) (Route .ipv6) ∧
    (∀ (s : String) (e : Endpoint .v6), (TextForm.read (Endpoint .v6) s).value = .ok e →
      (endpoint.canonical s).value = .ok (TextForm.text e)) ∧
    (∀ (s : String) (r : Route .ipv6), (TextForm.read (Route .ipv6) s).value = .ok r →
      (route.canonical s).value = .ok (TextForm.text r)) := by
  have htext (k : Kind) (v : k.Value) : (k.canonical (k.text v)).value = .ok (k.text v) :=
    canonical_eq_ok_iff.mpr ⟨v, k.read_text v, rfl⟩
  refine ⟨htext, ?_, ?_, Endpoint.disjoint, Route.disjoint, ?_, ?_⟩
  · intro k s c h
    obtain ⟨v, _, rfl⟩ := canonical_eq_ok_iff.mp h
    exact htext k v
  · intro k s t c d hs ht
    obtain ⟨v, hv, rfl⟩ := canonical_eq_ok_iff.mp hs
    obtain ⟨w, hw, rfl⟩ := canonical_eq_ok_iff.mp ht
    constructor
    · intro h
      cases text_injective h
      exact ⟨v, hv, hw⟩
    · rintro ⟨u, hu, hu'⟩
      cases hv.symm.trans hu
      cases hw.symm.trans hu'
      rfl
  · intro s e h
    exact canonical_eq_ok_iff.mpr
      ⟨.inr e, (TextForm.readEither_eq_inr_iff Endpoint.disjoint).mpr h, rfl⟩
  · intro s r h
    exact canonical_eq_ok_iff.mpr
      ⟨.inr r, (TextForm.readEither_eq_inr_iff Route.disjoint).mpr h, rfl⟩

end Kind

end NetLiteral
