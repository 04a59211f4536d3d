import NetLiteral.Proofs.Reader.Progress

/-!
# The grammar of hostnames

A name is read from the longest run of letters, digits, dashes and dots at the cursor, and only if
all of that run is a name: labels joined by dots, each of at most 63 bytes and all together of at
most 255. The labels of the name are the parts between the dots.
-/

namespace NetLiteral

/-! ## Names as texts -/

/-- The texts of labels: letters, digits and dashes, no dash at either end, not all of them digits. -/
structure Label.IsSpelling (text : Bytes) : Prop where
  length_pos : 1 ≤ text.length
  length_le : text.length ≤ 63
  isLabel : ∀ b ∈ text, Byte.isLabelRegular b = true ∨ b = Byte.dash
  head : ∀ b, text.head? = some b → Byte.isLabelRegular b = true
  last : ∀ b, text.getLast? = some b → Byte.isLabelRegular b = true
  notNumber : ∃ b ∈ text, Byte.isDigit b = false

theorem Label.isValid_iff_isSpelling {text : Bytes} : isValid text = true ↔ IsSpelling text := by
  rw [isValid_iff]
  have hlabel (b : UInt8) :
      Byte.isLabel b = true ↔ Byte.isLabelRegular b = true ∨ b = Byte.dash := by
    simp [Byte.isLabel, Byte.isLabelSpecial]
  simp only [hlabel]
  constructor
  · rintro ⟨hlength, hall, ⟨x, hx, hfirst⟩, ⟨y, hy, hlast⟩, hdigit⟩
    refine ⟨?_, hlength, hall, ?_, ?_, hdigit⟩
    · cases text with
      | nil => cases hx
      | cons b bs => simp
    · intro b hb
      cases hx.symm.trans hb
      exact hfirst
    · intro b hb
      cases hy.symm.trans hb
      exact hlast
  · intro h
    have hne : text ≠ [] := List.length_pos_iff.mp h.length_pos
    have hhead := List.head?_eq_some_head hne
    have hlast := List.getLast?_eq_some_getLast hne
    exact ⟨h.length_le, h.isLabel, ⟨_, hhead, h.head _ hhead⟩, ⟨_, hlast, h.last _ hlast⟩,
      h.notNumber⟩

theorem Label.IsSpelling.dot_not_mem {text : Bytes} (h : IsSpelling text) :
    Byte.dot ∉ text :=
  Label.dot_not_mem ⟨text, isValid_iff_isSpelling.mpr h⟩

namespace Hostname

/-- `text` is a name with the labels `parts`. -/
structure Spells (text : Bytes) (parts : List Bytes) : Prop where
  ne_nil : parts ≠ []
  isSpelling : ∀ part ∈ parts, Label.IsSpelling part
  text_eq : text = Bytes.join Byte.dot parts
  length_le : text.length ≤ 255

theorem spells_write (name : Hostname) : Spells name.write (name.labels.map Label.bytes) := by
  refine ⟨by simpa using name.labels_ne_nil, ?_, rfl, name.length_le⟩
  intro part hpart
  obtain ⟨label, _, rfl⟩ := List.mem_map.mp hpart
  exact Label.isValid_iff_isSpelling.mp label.valid

namespace Spells

variable {text : Bytes} {parts : List Bytes}

/-- Every text of the grammar is the text of a name. -/
theorem exists_write_eq (h : Spells text parts) : ∃ name : Hostname, name.write = text := by
  have hvalid : ∀ part ∈ parts, Label.isValid part = true :=
    fun part hpart => Label.isValid_iff_isSpelling.mpr (h.isSpelling part hpart)
  have hbytes : (parts.pmap Label.mk hvalid).map Label.bytes = parts := by
    rw [List.map_pmap, List.pmap_eq_map, List.map_id']
  have hjoin : join (parts.pmap Label.mk hvalid) = text := by rw [join, hbytes, h.text_eq]
  refine ⟨⟨parts.pmap Label.mk hvalid, ?_, ?_⟩, hjoin⟩
  · rw [ne_eq, List.pmap_eq_nil_iff]
    exact h.ne_nil
  · rw [hjoin]
    exact h.length_le

/-- The labels of a text are its parts between the dots. -/
theorem splitOn_eq (h : Spells text parts) : text.splitOn Byte.dot = parts := by
  rw [h.text_eq, Bytes.join]
  exact List.splitOn_intercalate Byte.dot
    (fun part hpart => (h.isSpelling part hpart).dot_not_mem) h.ne_nil

theorem unique {parts' : List Bytes} (h : Spells text parts) (h' : Spells text parts') :
    parts = parts' :=
  h.splitOn_eq.symm.trans h'.splitOn_eq

end Spells

/-! ## The end of a name -/

theorem isAscii_of_isName {b : UInt8} (h : isName b = true) : Bytes.isAscii b = true :=
  Byte.isAscii_of_isLiteral (isLiteral_of_isName h)

theorem labelPart_endsRun {c d : Cursor} {label : Label}
    (h : labelPart.eval c = (.ok label, d)) : EndsRun Byte.isLabel d.unread := by
  obtain ⟨-, rfl⟩ := eval_labelPart_eq_ok h
  exact Cursor.endsRun_advance_run (fun _ => Byte.isAscii_of_isLabel) _

theorem endsRun_isName {c : Cursor} (hlabel : EndsRun Byte.isLabel c.unread)
    (hdot : c.eat? Byte.dot = none) : EndsRun isName c.unread := by
  intro b hb
  have hne : b ≠ Byte.dot := by
    rintro rfl
    obtain ⟨rest, hrest⟩ := List.head?_eq_some_iff.mp hb
    rw [Cursor.eat?, hrest] at hdot
    simp at hdot
  simp [isName, hlabel b hb, hne]

/-- Each further label takes bytes, so there is no end before that of the run. -/
theorem furtherLabels_endsRun {n : Nat} {c d : Cursor} {labels : List Label}
    (hn : c.unread.length ≤ n) (hc : EndsRun Byte.isLabel c.unread)
    (h : (furtherLabels n).eval c = (.ok labels, d)) : EndsRun isName d.unread := by
  induction n generalizing c labels with
  | zero =>
    rw [furtherLabels, Parser.eval_pure] at h
    cases h
    rw [List.length_eq_zero_iff.mp (Nat.le_zero.mp hn)]
    exact .nil
  | succ n ih =>
    rcases eval_furtherLabels_succ_eq_ok h with
      ⟨hdot, -, rfl⟩ | ⟨label, labels', c₁, c₂, hdot, hlabel, hlabels, -⟩
    · exact endsRun_isName hc hdot
    · have hunread := ((Cursor.passes_of_eat? hdot).trans (labelPart_passes hlabel)).1
      have hlength : c₂.unread.length ≤ n := by
        rw [hunread, List.length_append, List.length_append, List.length_singleton] at hn
        omega
      exact ih hlength (labelPart_endsRun hlabel) hlabels

theorem parser_endsRun {c d : Cursor} {name : Hostname} (h : parser.eval c = (.ok name, d)) :
    EndsRun isName d.unread := by
  obtain ⟨label, labels, c₁, hlabel, hlabels, -⟩ := eval_parser_eq_ok h
  exact furtherLabels_endsRun (Nat.le_refl _) (labelPart_endsRun hlabel) hlabels

/-- A name is read exactly where it is the whole run of bytes that may stand in names. -/
theorem eval_parser_eq_ok_iff {c d : Cursor} {name : Hostname} :
    parser.eval c = (.ok name, d) ↔
      name.write = c.run isName ∧ d = c.advance (c.run isName).length := by
  have hname : ∀ b ∈ name.write, Bytes.isAscii b = true ∧ isName b = true := by
    intro b hb
    have hb' := name.isName_of_mem_write b hb
    exact ⟨isAscii_of_isName hb', hb'⟩
  constructor
  · intro h
    obtain ⟨consumed, unread⟩ := c
    obtain ⟨hunread, hconsumed⟩ := parser_passes h
    dsimp only at hunread hconsumed
    have hrun : Cursor.run ⟨consumed, unread⟩ isName = name.write := by
      rw [hunread, Cursor.run_append hname (parser_endsRun h)]
    refine ⟨hrun.symm, ?_⟩
    rw [hrun, hunread, Cursor.advance_append, ← hconsumed]
  · rintro ⟨hwrite, rfl⟩
    have hends := Cursor.endsRun_advance_run (fun _ => isAscii_of_isName) c
    obtain ⟨hunread, hconsumed⟩ := c.passes_advance_run isName
    have hread := name.parser_reads c.consumed _ hends
    rw [hwrite, ← hunread, ← hconsumed] at hread
    exact hread

/-- A name is read exactly where the longest run of letters, digits, dashes and dots is one. All of
the run is read then, and the labels of the name are those of the run and its parts between the
dots; nowhere else is anything consumed. -/
theorem read_as_whole_runs (c : Cursor) :
    ((∃ name d, parser.eval c = (.ok name, d)) ↔ ∃ parts, Spells (c.run isName) parts) ∧
    (∀ name d, parser.eval c = (.ok name, d) →
      name.write = c.run isName ∧ d = c.advance (c.run isName).length ∧
      (∀ parts, Spells (c.run isName) parts ↔ parts = name.labels.map Label.bytes) ∧
      name.write.splitOn Byte.dot = name.labels.map Label.bytes ∧
      Bytes.join Byte.dot (name.labels.map Label.bytes) = c.run isName) ∧
    ((¬∃ parts, Spells (c.run isName) parts) → parser.Refuses c) := by
  have hreads : (∃ name d, parser.eval c = (.ok name, d)) ↔
      ∃ parts, Spells (c.run isName) parts := by
    constructor
    · rintro ⟨name, d, h⟩
      rw [← (eval_parser_eq_ok_iff.mp h).1]
      exact ⟨_, spells_write name⟩
    · rintro ⟨parts, h⟩
      obtain ⟨name, hwrite⟩ := h.exists_write_eq
      exact ⟨name, _, eval_parser_eq_ok_iff.mpr ⟨hwrite, rfl⟩⟩
  refine ⟨hreads, ?_, ?_⟩
  · intro name d h
    obtain ⟨hwrite, hd⟩ := eval_parser_eq_ok_iff.mp h
    have hspells := spells_write name
    refine ⟨hwrite, hd, ?_, hspells.splitOn_eq, hwrite⟩
    intro parts
    rw [← hwrite]
    constructor
    · exact fun hparts => hparts.unique hspells
    · rintro rfl
      exact hspells
  · intro hnone
    rcases parser_orderly c with ⟨name, d, heval, _⟩ | ⟨e, heval, _⟩
    · exact absurd (hreads.mp ⟨name, d, heval⟩) hnone
    · exact ⟨e, heval⟩

end Hostname

end NetLiteral
