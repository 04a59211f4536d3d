import Mathlib
import NetLiteral.Json

/-!
# JSON texts

No two values have the same text. From its first character on, a text tells what value it begins
with and where that value ends, so a list of reports can be told from its text.
-/

namespace NetLiteral.Json

variable {α : Type} {r r' : List Char}

/-! ## Strings -/

/-- The characters that do not stand for themselves in a string. -/
def escaped : List Char :=
  ['\"', '\\'] ++ (List.range 0x20).map Char.ofNat

theorem escapeChar_of_notMem {c : Char} (h : c ∉ escaped) : escapeChar c = [c] := by
  rw [escapeChar.eq_def]
  split
  case h_8 =>
    rw [if_neg]
    intro hlt
    refine h (List.mem_append_right _ (List.mem_map.mpr ⟨c.toNat, ?_, Char.ofNat_toNat c⟩))
    exact List.mem_range.mpr hlt
  all_goals exact absurd (by decide) h

theorem exists_escapeChar {c : Char} (h : c ∈ escaped) : ∃ code, escapeChar c = '\\' :: code := by
  have hheads : (escaped.all fun c => (escapeChar c).head? == some '\\') = true := by decide
  exact List.head?_eq_some_iff.mp (eq_of_beq (List.all_eq_true.mp hheads c h))

/-- No escape sequence begins with another one. -/
theorem eq_of_escapeChar_append {c c' : Char} (hc : c ∈ escaped) (hc' : c' ∈ escaped)
    {cs : List Char} (h : escapeChar c' = escapeChar c ++ cs) : c = c' := by
  have hcodes : (escaped.all fun c => escaped.all fun c' =>
      (escapeChar c').take (escapeChar c).length = escapeChar c → c = c') = true := by
    decide +kernel
  have htake : (escapeChar c').take (escapeChar c).length = escapeChar c := by
    rw [h, List.take_left]
  exact of_decide_eq_true (List.all_eq_true.mp (List.all_eq_true.mp hcodes c hc) c' hc') htake

theorem escapeChar_append_inj {c c' : Char} (h : escapeChar c ++ r = escapeChar c' ++ r') :
    c = c' ∧ r = r' := by
  have heq : c = c' := by
    -- A character that stands for itself is no backslash, which begins every escape sequence.
    by_cases hc : c ∈ escaped <;> by_cases hc' : c' ∈ escaped
    · rcases List.append_eq_append_iff.mp h with ⟨cs, hcs, -⟩ | ⟨cs, hcs, -⟩
      · exact eq_of_escapeChar_append hc hc' hcs
      · exact (eq_of_escapeChar_append hc' hc hcs).symm
    · obtain ⟨code, hcode⟩ := exists_escapeChar hc
      rw [hcode, escapeChar_of_notMem hc'] at h
      exact absurd ((List.cons.inj h).1 ▸ by decide) hc'
    · obtain ⟨code, hcode⟩ := exists_escapeChar hc'
      rw [hcode, escapeChar_of_notMem hc] at h
      exact absurd ((List.cons.inj h).1 ▸ by decide) hc
    · rw [escapeChar_of_notMem hc, escapeChar_of_notMem hc'] at h
      exact (List.cons.inj h).1
  subst heq
  exact ⟨rfl, List.append_cancel_left h⟩

theorem escapeChar_append_ne_quote (c : Char) (cs : List Char) :
    escapeChar c ++ cs ≠ '\"' :: r := by
  intro h
  by_cases hc : c ∈ escaped
  · obtain ⟨code, hcode⟩ := exists_escapeChar hc
    rw [hcode] at h
    exact absurd (List.cons.inj h).1 (by decide)
  · rw [escapeChar_of_notMem hc] at h
    exact hc ((List.cons.inj h).1 ▸ by decide)

/-- The first quote that is not escaped ends a string. -/
theorem flatMap_escapeChar_append_inj {cs cs' : List Char}
    (h : cs.flatMap escapeChar ++ '\"' :: r = cs'.flatMap escapeChar ++ '\"' :: r') :
    cs = cs' ∧ r = r' := by
  induction cs generalizing cs' with
  | nil =>
    cases cs' with
    | nil => exact ⟨rfl, (List.cons.inj h).2⟩
    | cons c' cs' =>
      rw [List.flatMap_cons, List.append_assoc] at h
      exact absurd h.symm (escapeChar_append_ne_quote c' _)
  | cons c cs ih =>
    cases cs' with
    | nil =>
      rw [List.flatMap_cons, List.append_assoc] at h
      exact absurd h (escapeChar_append_ne_quote c _)
    | cons c' cs' =>
      rw [List.flatMap_cons, List.flatMap_cons, List.append_assoc, List.append_assoc] at h
      obtain ⟨rfl, hrest⟩ := escapeChar_append_inj h
      obtain ⟨rfl, hr⟩ := ih hrest
      exact ⟨rfl, hr⟩

theorem toList_quote (s : String) :
    (quote s).toList = '\"' :: (s.toList.flatMap escapeChar ++ ['\"']) := by
  simp [quote]

theorem quote_append_inj {s s' : String} (h : (quote s).toList ++ r = (quote s').toList ++ r') :
    s = s' ∧ r = r' := by
  rw [toList_quote, toList_quote, List.cons_append, List.cons_append, List.append_assoc,
    List.append_assoc] at h
  obtain ⟨hs, hr⟩ := flatMap_escapeChar_append_inj (List.cons.inj h).2
  exact ⟨String.toList_inj.mp hs, hr⟩

/-! ## Numbers -/

def isNumeral (c : Char) : Bool :=
  c.isDigit || c = '-'

/-- A number that stands before `r` ends there. -/
def EndsNumber (r : List Char) : Prop :=
  ∀ c ∈ r.head?, isNumeral c = false

theorem isNumeral_of_mem_repr (n : Nat) : ∀ c ∈ n.repr.toList, isNumeral c = true := by
  intro c hc
  rw [Nat.repr_eq_ofList_toDigits, String.toList_ofList] at hc
  rw [isNumeral, Nat.isDigit_of_mem_toDigits (by decide) (by decide) hc, Bool.true_or]

theorem toList_toString_cases (n : Int) :
    ∃ m : Nat,
      (toString n).toList = m.repr.toList ∨ (toString n).toList = '-' :: m.repr.toList := by
  rw [Int.toString_eq_repr, Int.repr_eq_if]
  split
  · exact ⟨_, .inl rfl⟩
  · exact ⟨_, .inr String.toList_append⟩

theorem isNumeral_of_mem_toString {n : Int} : ∀ c ∈ (toString n).toList, isNumeral c = true := by
  obtain ⟨m, hm | hm⟩ := toList_toString_cases n
  · exact hm ▸ isNumeral_of_mem_repr m
  · rw [hm]
    exact List.forall_mem_cons.mpr ⟨rfl, isNumeral_of_mem_repr m⟩

theorem toList_toString_ne_nil (n : Int) : (toString n).toList ≠ [] := by
  obtain ⟨m, hm | hm⟩ := toList_toString_cases n
  · rw [hm, Nat.repr_eq_ofList_toDigits, String.toList_ofList]
    exact Nat.toDigits_ne_nil
  · rw [hm]
    exact List.cons_ne_nil _ _

theorem takeWhile_isNumeral_append {cs : List Char} (hcs : ∀ c ∈ cs, isNumeral c = true)
    (hr : EndsNumber r) : (cs ++ r).takeWhile isNumeral = cs := by
  rw [List.takeWhile_append_of_pos hcs]
  cases r with
  | nil => rw [List.takeWhile_nil, List.append_nil]
  | cons c r => rw [List.takeWhile_cons, hr c rfl, if_neg Bool.false_ne_true, List.append_nil]

theorem toString_append_inj {n n' : Int} (hr : EndsNumber r) (hr' : EndsNumber r')
    (h : (toString n).toList ++ r = (toString n').toList ++ r') : n = n' ∧ r = r' := by
  have heq : (toString n).toList = (toString n').toList := by
    rw [← takeWhile_isNumeral_append isNumeral_of_mem_toString hr, h,
      takeWhile_isNumeral_append isNumeral_of_mem_toString hr']
  refine ⟨?_, List.append_cancel_left (heq ▸ h)⟩
  rwa [String.toList_inj, Int.toString_eq_repr, Int.toString_eq_repr, Int.repr_inj] at heq

/-! ## Blocks -/

/-- The text of `a` by `write` shows, before any text that ends it, that it is the text of `a`. -/
def IsRecognized (write : α → String) (a : α) : Prop :=
  ∀ {b r r'}, EndsNumber r → EndsNumber r' →
    (write a).toList ++ r = (write b).toList ++ r' → a = b ∧ r = r'

/-- What follows the first item of a block. -/
def blockRest (closing : String) (depth : Nat) (items : List String) : List Char :=
  items.flatMap (fun item => ',' :: ((newline (depth + 1)).toList ++ item.toList)) ++
    ((newline depth).toList ++ closing.toList)

theorem toList_newline (depth : Nat) :
    (newline depth).toList = '\n' :: List.replicate (2 * depth) ' ' := by
  simp [newline]

theorem toList_intercalate_cons (item : String) (items : List String) :
    (",".intercalate (item :: items)).toList =
      item.toList ++ items.flatMap fun item => ',' :: item.toList := by
  have hcomma : (",").toList = [','] := by decide
  rw [String.toList_intercalate, hcomma, List.map_cons]
  induction items generalizing item with
  | nil => simp
  | cons item' items ih =>
    rw [List.map_cons, List.intercalate_cons_cons, ih, List.flatMap_cons, List.append_assoc]
    rfl

theorem toList_block_cons (opening closing : String) (depth : Nat) (item : String)
    (items : List String) : (block opening closing depth (item :: items)).toList =
      opening.toList ++ ((newline (depth + 1)).toList ++ (item.toList ++
        blockRest closing depth items)) := by
  have hne : (item :: items).isEmpty = false := rfl
  rw [block, hne, if_neg Bool.false_ne_true]
  simp only [String.toList_append, List.map_cons, toList_intercalate_cons, List.flatMap_map,
    blockRest, List.append_assoc]

theorem blockRest_cons (closing : String) (depth : Nat) (item : String) (items : List String) :
    blockRest closing depth (item :: items) =
      ',' :: ((newline (depth + 1)).toList ++ (item.toList ++ blockRest closing depth items)) := by
  simp only [blockRest, List.flatMap_cons, List.cons_append, List.append_assoc]

theorem endsNumber_blockRest (closing : String) (depth : Nat) (items : List String)
    (r : List Char) : EndsNumber (blockRest closing depth items ++ r) := by
  cases items with
  | nil => simp [blockRest, toList_newline, EndsNumber, isNumeral]
  | cons item items => simp [blockRest_cons, EndsNumber, isNumeral]

theorem blockRest_append_inj {write : α → String} {closing : String} {depth : Nat} {as bs : List α}
    (has : ∀ a ∈ as, IsRecognized write a)
    (h : blockRest closing depth (as.map write) ++ r =
      blockRest closing depth (bs.map write) ++ r') :
    as = bs ∧ r = r' := by
  induction as generalizing bs with
  | nil =>
    cases bs with
    | nil => exact ⟨rfl, List.append_cancel_left h⟩
    -- One block goes on with a newline and the other one with a comma.
    | cons b bs => simp [blockRest, toList_newline] at h
  | cons a as ih =>
    cases bs with
    | nil => simp [blockRest, toList_newline] at h
    | cons b bs =>
      obtain ⟨ha, has⟩ := List.forall_mem_cons.mp has
      rw [List.map_cons, List.map_cons, blockRest_cons, blockRest_cons, List.cons_append,
        List.cons_append, List.append_assoc, List.append_assoc, List.append_assoc,
        List.append_assoc] at h
      have hitem := List.append_cancel_left (List.cons.inj h).2
      obtain ⟨rfl, hrest⟩ := ha (endsNumber_blockRest _ _ _ _) (endsNumber_blockRest _ _ _ _) hitem
      obtain ⟨rfl, hr⟩ := ih has hrest
      exact ⟨rfl, hr⟩

theorem block_nil_append_ne {opening closing : String} {c : Char} (hc : c ≠ '\n')
    (hclosing : closing.toList = [c]) (depth : Nat) (item : String) (items : List String) :
    (block opening closing depth []).toList ++ r ≠
      (block opening closing depth (item :: items)).toList ++ r' := by
  intro h
  have hempty : block opening closing depth [] = opening ++ closing := rfl
  rw [hempty, toList_block_cons, String.toList_append, List.append_assoc, List.append_assoc,
    hclosing, toList_newline] at h
  exact hc (List.cons.inj (List.append_cancel_left h)).1

theorem block_append_inj {write : α → String} {opening closing : String} {c : Char}
    (hc : c ≠ '\n') (hclosing : closing.toList = [c]) {depth : Nat} {as bs : List α}
    (has : ∀ a ∈ as, IsRecognized write a)
    (h : (block opening closing depth (as.map write)).toList ++ r =
      (block opening closing depth (bs.map write)).toList ++ r') :
    as = bs ∧ r = r' := by
  cases as with
  | nil =>
    cases bs with
    | nil => exact ⟨rfl, List.append_cancel_left h⟩
    | cons b bs => exact absurd h (block_nil_append_ne hc hclosing _ _ _)
  | cons a as =>
    cases bs with
    | nil => exact absurd h.symm (block_nil_append_ne hc hclosing _ _ _)
    | cons b bs =>
      obtain ⟨ha, has⟩ := List.forall_mem_cons.mp has
      simp only [List.map_cons, toList_block_cons, List.append_assoc] at h
      have hitem := List.append_cancel_left (List.append_cancel_left h)
      obtain ⟨rfl, hrest⟩ := ha (endsNumber_blockRest _ _ _ _) (endsNumber_blockRest _ _ _ _) hitem
      obtain ⟨rfl, hr⟩ := blockRest_append_inj has hrest
      exact ⟨rfl, hr⟩

/-! ## Values -/

theorem renderItems_eq_map (depth : Nat) (items : List Json) :
    renderItems depth items = items.map (render depth) := by
  induction items with
  | nil => rfl
  | cons item items ih => rw [renderItems, ih, List.map_cons]

/-- The text of a field. -/
def renderField (depth : Nat) (field : String × Json) : String :=
  quote field.1 ++ ": " ++ render depth field.2

theorem renderFields_eq_map (depth : Nat) (fields : List (String × Json)) :
    renderFields depth fields = fields.map (renderField depth) := by
  induction fields with
  | nil => rfl
  | cons field fields ih => rw [renderFields, ih, List.map_cons, renderField]

theorem isRecognized_renderField {depth : Nat} {field : String × Json}
    (h : IsRecognized (render depth) field.2) : IsRecognized (renderField depth) field := by
  intro field' r r' hr hr' heq
  simp only [renderField, String.toList_append, List.append_assoc] at heq
  obtain ⟨hkey, hvalue⟩ := quote_append_inj heq
  obtain ⟨hfield, hr⟩ := h hr hr' (List.append_cancel_left hvalue)
  exact ⟨Prod.ext hkey hfield, hr⟩

/-- What the first character of a text tells about its value. -/
inductive Shape
  | null
  | bool (b : Bool)
  | num
  | str
  | arr
  | obj

def shape : Json → Shape
  | null => .null
  | bool b => .bool b
  | num _ => .num
  | str _ => .str
  | arr _ => .arr
  | obj _ => .obj

def Shape.ofInitial (c : Char) : Shape :=
  if c = 'n' then null
  else if c = 't' then bool true
  else if c = 'f' then bool false
  else if c = '\"' then str
  else if c = '[' then arr
  else if c = '{' then obj
  else num

theorem Shape.ofInitial_of_isNumeral {c : Char} (h : isNumeral c = true) : ofInitial c = num := by
  have hne (c' : Char) (hc' : isNumeral c' = false) : c ≠ c' := by
    rintro rfl
    exact Bool.false_ne_true (hc'.symm.trans h)
  simp only [ofInitial, hne 'n' rfl, hne 't' rfl, hne 'f' rfl, hne '\"' rfl, hne '[' rfl,
    hne '{' rfl, if_false]

theorem exists_toList_block (opening closing : String) (depth : Nat) (items : List String) :
    ∃ cs, (block opening closing depth items).toList = opening.toList ++ cs := by
  cases items with
  | nil => exact ⟨closing.toList, String.toList_append⟩
  | cons item items => exact ⟨_, toList_block_cons ..⟩

/-- A value begins with a character of its shape. -/
theorem exists_toList_render (depth : Nat) (j : Json) :
    ∃ c cs, (render depth j).toList = c :: cs ∧ Shape.ofInitial c = j.shape := by
  cases j with
  | null =>
    rw [render]
    exact ⟨'n', ['u', 'l', 'l'], by decide, rfl⟩
  | bool b =>
    cases b <;> rw [render]
    · exact ⟨'f', ['a', 'l', 's', 'e'], by decide, rfl⟩
    · exact ⟨'t', ['r', 'u', 'e'], by decide, rfl⟩
  | num n =>
    obtain ⟨c, cs, hcs⟩ := List.exists_cons_of_ne_nil (toList_toString_ne_nil n)
    have hc : isNumeral c = true := isNumeral_of_mem_toString c (hcs ▸ List.mem_cons_self)
    rw [render]
    exact ⟨c, cs, hcs, Shape.ofInitial_of_isNumeral hc⟩
  | str s =>
    rw [render]
    exact ⟨'\"', _, toList_quote s, rfl⟩
  | arr items =>
    obtain ⟨cs, hcs⟩ := exists_toList_block "[" "]" depth (renderItems (depth + 1) items)
    rw [render]
    exact ⟨'[', cs, hcs, rfl⟩
  | obj fields =>
    obtain ⟨cs, hcs⟩ := exists_toList_block "\x7b" "\x7d" depth (renderFields (depth + 1) fields)
    rw [render]
    exact ⟨'{', cs, hcs, rfl⟩

theorem shape_eq_of_render_append {depth : Nat} {j j' : Json}
    (h : (render depth j).toList ++ r = (render depth j').toList ++ r') : j.shape = j'.shape := by
  obtain ⟨c, cs, hcs, hc⟩ := exists_toList_render depth j
  obtain ⟨c', cs', hcs', hc'⟩ := exists_toList_render depth j'
  rw [hcs, hcs'] at h
  rw [← hc, ← hc', (List.cons.inj h).1]

/-- What holds of a value if it holds of its items or of the values of its fields holds of every
value. -/
theorem induction_on_parts {P : Json → Prop} (hnull : P null) (hbool : ∀ b, P (bool b))
    (hnum : ∀ n, P (num n)) (hstr : ∀ s, P (str s))
    (harr : ∀ items, (∀ item ∈ items, P item) → P (arr items))
    (hobj : ∀ fields, (∀ field ∈ fields, P field.2) → P (obj fields)) (j : Json) : P j :=
  @Json.rec P (fun items => ∀ item ∈ items, P item) (fun fields => ∀ field ∈ fields, P field.2)
    (fun field => P field.2) hnull hbool hnum hstr harr hobj nofun
    (fun _ _ hitem hitems => List.forall_mem_cons.mpr ⟨hitem, hitems⟩) nofun
    (fun _ _ hfield hfields => List.forall_mem_cons.mpr ⟨hfield, hfields⟩)
    (fun _ _ hvalue => hvalue) j

/-- The text of a value tells the value and where it ends. -/
theorem isRecognized_render (depth : Nat) (j : Json) : IsRecognized (render depth) j := by
  induction j using induction_on_parts generalizing depth with
  | hnull =>
    intro j' r r' hr hr' h
    cases j' with
    | null => exact ⟨rfl, List.append_cancel_left h⟩
    | _ => cases shape_eq_of_render_append h
  | hbool b =>
    intro j' r r' hr hr' h
    cases j' with
    | bool b' =>
      cases shape_eq_of_render_append h
      exact ⟨rfl, List.append_cancel_left h⟩
    | _ => cases shape_eq_of_render_append h
  | hnum n =>
    intro j' r r' hr hr' h
    cases j' with
    | num n' =>
      rw [render, render] at h
      obtain ⟨rfl, hrest⟩ := toString_append_inj hr hr' h
      exact ⟨rfl, hrest⟩
    | _ => cases shape_eq_of_render_append h
  | hstr s =>
    intro j' r r' hr hr' h
    cases j' with
    | str s' =>
      rw [render, render] at h
      obtain ⟨rfl, hrest⟩ := quote_append_inj h
      exact ⟨rfl, hrest⟩
    | _ => cases shape_eq_of_render_append h
  | harr items ih =>
    intro j' r r' hr hr' h
    cases j' with
    | arr items' =>
      rw [render, render, renderItems_eq_map, renderItems_eq_map] at h
      have hitems : ∀ item ∈ items, IsRecognized (render (depth + 1)) item :=
        fun item hitem => ih item hitem (depth + 1)
      have hclosing : ("]").toList = [']'] := by decide
      have hne : ']' ≠ '\n' := by decide
      obtain ⟨rfl, hrest⟩ := block_append_inj hne hclosing hitems h
      exact ⟨rfl, hrest⟩
    | _ => cases shape_eq_of_render_append h
  | hobj fields ih =>
    intro j' r r' hr hr' h
    cases j' with
    | obj fields' =>
      rw [render, render, renderFields_eq_map, renderFields_eq_map] at h
      have hfields : ∀ field ∈ fields, IsRecognized (renderField (depth + 1)) field :=
        fun field hfield => isRecognized_renderField (ih field hfield (depth + 1))
      have hclosing : ("\x7d").toList = ['}'] := by decide
      have hne : '}' ≠ '\n' := by decide
      obtain ⟨rfl, hrest⟩ := block_append_inj hne hclosing hfields h
      exact ⟨rfl, hrest⟩
    | _ => cases shape_eq_of_render_append h

theorem pretty_injective {j j' : Json} (h : j.pretty = j'.pretty) : j = j' := by
  have hend : EndsNumber [] := nofun
  have happend : (render 0 j).toList ++ [] = (render 0 j').toList ++ [] := by
    rw [List.append_nil, List.append_nil]
    exact String.toList_inj.mpr h
  exact (isRecognized_render 0 j hend hend happend).1

end NetLiteral.Json
