import NetLiteral.Hostname
import NetLiteral.Proofs.Bytes.Join
import NetLiteral.Proofs.Parser.Accepts

/-!
# Hostnames read at a cursor

A hostname is read from its labels joined by dots, up to the first byte that belongs to no name, and
from no other text.
-/

namespace NetLiteral

/-! ## Labels -/

namespace Label

theorem isValid_iff {bs : Bytes} :
    isValid bs = true ↔ bs.length ≤ maxLength ∧ (∀ b ∈ bs, Byte.isLabel b = true) ∧
      (∃ b, bs.head? = some b ∧ Byte.isLabelRegular b = true) ∧
      (∃ b, bs.getLast? = some b ∧ Byte.isLabelRegular b = true) ∧
      ∃ b ∈ bs, Byte.isDigit b = false := by
  simp [isValid, Option.any_eq_true, and_assoc]

theorem dot_not_mem (label : Label) : Byte.dot ∉ label.bytes := by
  intro hmem
  exact Bool.false_ne_true ((isValid_iff.mp label.valid).2.1 Byte.dot hmem)

theorem parser_reads (label : Label) : parser.Reads Byte.isLabel label.bytes label := by
  obtain ⟨hlength, hall, ⟨b, hhead, hregular⟩, _, _⟩ := isValid_iff.mp label.valid
  have hclass : ∀ b ∈ label.bytes, Bytes.isAscii b = true ∧ Byte.isLabel b = true := by
    intro b hb
    exact ⟨Byte.isAscii_of_isLabel (hall b hb), hall b hb⟩
  apply Parser.Reads.attempt
  apply Parser.Reads.position
  intro start consumed rest hrest
  have hpeek : Cursor.peek ⟨consumed, label.bytes ++ rest⟩ = some b := by
    simp [Cursor.peek, List.head?_append, hhead]
  rw [Parser.eval_bind_of_ok (Parser.eval_peek _), hpeek]
  simp only [hregular, Bool.not_true, Bool.false_eq_true, if_false]
  rw [Parser.eval_bind_of_ok (Parser.Reads.takeWhile hclass consumed rest hrest)]
  simp [Nat.not_lt.mpr hlength, label.valid]

/-- The whole run of label bytes is read as a label, or nothing is. -/
theorem eval_parser_cases (c : Cursor) :
    (∃ label : Label, c.run Byte.isLabel = label.bytes ∧
        parser.eval c = (.ok label, c.advance label.bytes.length)) ∨
      ∃ reason, parser.eval c = (.error ⟨.label, c.position, reason⟩, c) := by
  rw [parser, Parser.eval_attempt, Parser.eval_bind_of_ok (Parser.eval_position c),
    Parser.eval_bind_of_ok (Parser.eval_peek c)]
  cases c.peek with
  | none => exact .inr ⟨.empty, rfl⟩
  | some b =>
    by_cases hregular : Byte.isLabelRegular b = true
    · simp only [hregular, Bool.not_true, Bool.false_eq_true, if_false]
      rw [Parser.eval_bind_of_ok (Parser.eval_takeWhile Byte.isLabel c)]
      by_cases hlong : maxLength < (c.run Byte.isLabel).length
      · exact .inr ⟨.tooLong, by simp [hlong]⟩
      · by_cases hvalid : isValid (c.run Byte.isLabel) = true
        · exact .inl ⟨⟨_, hvalid⟩, rfl, by simp [hlong, hvalid]⟩
        · exact .inr ⟨.malformed, by simp [hlong, hvalid]⟩
    · exact .inr ⟨_, by simp only [hregular]; rfl⟩

end Label

/-! ## Names -/

namespace Hostname

/-- A byte that may stand in a name. -/
def isName (b : UInt8) : Bool :=
  Byte.isLabel b || b == Byte.dot

theorem isLiteral_of_isName {b : UInt8} (h : isName b = true) : Byte.isLiteral b = true := by
  rcases (Bool.or_eq_true _ _).mp h with h | h
  · exact Byte.isLiteral_of_isLabel h
  · simp [Byte.isLiteral, h]

theorem isName_of_mem_write (h : Hostname) : ∀ b ∈ h.write, isName b = true := by
  apply Bytes.forall_mem_join (P := fun b => isName b = true) rfl
  intro p hp b hb
  obtain ⟨label, _, rfl⟩ := List.mem_map.mp hp
  simp [isName, (Label.isValid_iff.mp label.valid).2.1 b hb]

theorem labelPart_reads (label : Label) : labelPart.Reads Byte.isLabel label.bytes label :=
  label.parser_reads.mapFailure _

/-- The labels of a name after the first one, each after a dot. -/
def furtherText (labels : List Label) : Bytes :=
  labels.flatMap fun label => Byte.dot :: label.bytes

theorem join_cons (label : Label) (labels : List Label) :
    join (label :: labels) = label.bytes ++ furtherText labels := by
  induction labels generalizing label with
  | nil => simp [join, furtherText]
  | cons label' labels ih =>
    rw [join, List.map_cons, List.map_cons, Bytes.join_cons_cons, ← List.map_cons, ← join, ih,
      furtherText, furtherText, List.flatMap_cons, List.cons_append]

theorem endsRun_isLabel_append {labels : List Label} {rest : Bytes} (hrest : EndsRun isName rest) :
    EndsRun Byte.isLabel (furtherText labels ++ rest) := by
  cases labels with
  | nil => exact hrest.mono fun b hb => by simp [isName, hb]
  | cons label labels => exact EndsRun.cons_iff.mpr rfl

theorem furtherLabels_reads {labels : List Label} {n : Nat} (hn : labels.length ≤ n) :
    (furtherLabels n).Reads isName (furtherText labels) labels := by
  intro consumed rest hrest
  induction labels generalizing n consumed with
  | nil =>
    cases n with
    | zero => simp [furtherLabels, furtherText]
    | succ n =>
      have hdot : rest.head? ≠ some Byte.dot := by
        intro hhead
        exact Bool.false_ne_true (hrest Byte.dot hhead).symm
      have heat : (Parser.eat Byte.dot).eval ⟨consumed, rest⟩ = (.ok false, ⟨consumed, rest⟩) := by
        rw [Parser.eval_eat, Cursor.eat?_eq_none hdot]
      rw [furtherText, List.flatMap_nil, List.nil_append, furtherLabels,
        Parser.eval_bind_of_ok heat]
      simp
  | cons label labels ih =>
    cases n with
    | zero => cases hn
    | succ n =>
      rw [List.length_cons, Nat.add_le_add_iff_right] at hn
      have htext : furtherText (label :: labels) ++ rest =
          Byte.dot :: (label.bytes ++ (furtherText labels ++ rest)) := by
        simp [furtherText]
      have heat : (Parser.eat Byte.dot).eval
          ⟨consumed, Byte.dot :: (label.bytes ++ (furtherText labels ++ rest))⟩ =
            (.ok true, ⟨consumed ++ [Byte.dot], label.bytes ++ (furtherText labels ++ rest)⟩) := by
        rw [Parser.eval_eat, Cursor.eat?_cons_self]
      rw [htext, furtherLabels, Parser.eval_bind_of_ok heat, if_pos rfl,
        Parser.eval_bind_of_ok (labelPart_reads label _ _ (endsRun_isLabel_append hrest)),
        Parser.eval_bind_of_ok (ih hn _)]
      simp [furtherText]

theorem length_le_length_furtherText (labels : List Label) :
    labels.length ≤ (furtherText labels).length := by
  induction labels with
  | nil => exact Nat.le_refl 0
  | cons label labels ih =>
    rw [furtherText] at ih ⊢
    rw [List.flatMap_cons, List.length_append, List.length_cons, List.length_cons]
    omega

theorem labelsAfterDots_reads (labels : List Label) :
    labelsAfterDots.Reads isName (furtherText labels) labels := by
  intro consumed rest hrest
  have hfuel : labels.length ≤ (furtherText labels ++ rest).length := by
    rw [List.length_append]
    have hle := length_le_length_furtherText labels
    omega
  exact furtherLabels_reads hfuel consumed rest hrest

theorem parser_reads (h : Hostname) : parser.Reads isName h.write h := by
  obtain ⟨labels, hne, hlength⟩ := h
  cases labels with
  | nil => exact absurd rfl hne
  | cons label labels =>
    apply Parser.Reads.attempt
    apply Parser.Reads.position
    intro start
    rw [write, join_cons]
    apply Parser.Reads.bind (labelPart_reads label)
    · apply (labelsAfterDots_reads labels).bind_ok
      intro c
      simp [hlength]
    · exact fun rest hrest => endsRun_isLabel_append hrest

/-! ## What a name is read from -/

theorem eval_labelPart_eq_ok {c c' : Cursor} {label : Label}
    (h : labelPart.eval c = (.ok label, c')) :
    c.run Byte.isLabel = label.bytes ∧ c' = c.advance (c.run Byte.isLabel).length := by
  rw [labelPart, Parser.eval_mapFailure] at h
  rcases Label.eval_parser_cases c with ⟨label', hrun, heval⟩ | ⟨reason, heval⟩
  · rw [heval] at h
    cases h
    rw [hrun]
    exact ⟨rfl, rfl⟩
  · rw [heval] at h
    cases h

/-- There is a further label exactly if a dot comes next. -/
theorem eval_furtherLabels_succ_eq_ok {n : Nat} {c c' : Cursor} {labels : List Label}
    (h : (furtherLabels (n + 1)).eval c = (.ok labels, c')) :
    (c.eat? Byte.dot = none ∧ labels = [] ∧ c' = c) ∨
      ∃ label labels' d d', c.eat? Byte.dot = some d ∧ labelPart.eval d = (.ok label, d') ∧
        (furtherLabels n).eval d' = (.ok labels', c') ∧ labels = label :: labels' := by
  rw [furtherLabels] at h
  obtain ⟨dotted, d, heat, hlater⟩ := Parser.eval_bind_eq_ok h
  rw [Parser.eval_eat] at heat
  cases hd : c.eat? Byte.dot with
  | none =>
    rw [hd] at heat
    cases heat
    cases hlater
    exact .inl ⟨rfl, rfl, rfl⟩
  | some d' =>
    rw [hd] at heat
    cases heat
    obtain ⟨label, d₁, hlabel, hlater⟩ := Parser.eval_bind_eq_ok hlater
    obtain ⟨labels', d₂, hlabels, hpure⟩ := Parser.eval_bind_eq_ok hlater
    cases hpure
    exact .inr ⟨label, labels', _, d₁, rfl, hlabel, hlabels, rfl⟩

theorem eval_parser_eq_ok {c c' : Cursor} {h : Hostname} (heval : parser.eval c = (.ok h, c')) :
    ∃ label labels d, labelPart.eval c = (.ok label, d) ∧
      labelsAfterDots.eval d = (.ok labels, c') ∧ h.labels = label :: labels := by
  obtain ⟨start, d, hstart, hlater⟩ := Parser.eval_bind_eq_ok (Parser.eval_attempt_eq_ok heval)
  cases hstart
  obtain ⟨label, d₁, hlabel, hlater⟩ := Parser.eval_bind_eq_ok hlater
  obtain ⟨labels, d₂, hlabels, hlater⟩ := Parser.eval_bind_eq_ok hlater
  split at hlater
  next =>
    cases hlater
    exact ⟨label, labels, d₁, hlabel, hlabels, rfl⟩
  next => cases hlater

theorem labelPart_passes {c c' : Cursor} {label : Label}
    (h : labelPart.eval c = (.ok label, c')) : c.Passes label.bytes c' := by
  obtain ⟨hrun, rfl⟩ := eval_labelPart_eq_ok h
  rw [← hrun]
  exact c.passes_advance_run Byte.isLabel

theorem furtherLabels_passes {n : Nat} {c c' : Cursor} {labels : List Label}
    (h : (furtherLabels n).eval c = (.ok labels, c')) : c.Passes (furtherText labels) c' := by
  induction n generalizing c labels with
  | zero =>
    cases h
    exact .refl c
  | succ n ih =>
    rcases eval_furtherLabels_succ_eq_ok h with
      ⟨_, rfl, rfl⟩ | ⟨label, labels', d, d', hdot, hlabel, hlabels, rfl⟩
    · exact .refl c'
    · exact (Cursor.passes_of_eat? hdot).trans ((labelPart_passes hlabel).trans (ih hlabels))

/-- A name is read from its text, and from nothing else. -/
theorem parser_passes {c c' : Cursor} {h : Hostname} (heval : parser.eval c = (.ok h, c')) :
    c.Passes h.write c' := by
  obtain ⟨label, labels, d, hlabel, hlabels, hh⟩ := eval_parser_eq_ok heval
  rw [write, hh, join_cons]
  exact (labelPart_passes hlabel).trans (furtherLabels_passes hlabels)

theorem parser_accepts_iff {text : Bytes} {h : Hostname} :
    parser.Accepts text h ↔ text = h.write := by
  constructor
  · rintro ⟨d, heval, hend⟩
    have hunread := (parser_passes heval).1
    rwa [hend, List.append_nil] at hunread
  · rintro rfl
    exact h.parser_reads.accepts

end Hostname

end NetLiteral
