import NetLiteral.Yaml.Layout
import NetLiteral.Yaml.Scalar.Block
import NetLiteral.Yaml.Scalar.Plain
import NetLiteral.Yaml.Scalar.Quoted

/-!
# The tokens of a text

Spaces and comments are passed over; what stands behind them is the next token. A tab separates
tokens only where no key may start, since it would be mistaken for indentation there.
-/

namespace NetLiteral.Yaml

namespace Layout

/-- The layout and the text after spaces, comments and line ends. -/
def skipFrom (inComment : Bool) (place : Place) (l : Layout) : List Char → Layout × Source
  | [] => (l, ⟨place, []⟩)
  | c :: rest =>
    if isBreak c then
      skipFrom false (place.after c) { l with keyAllowed := l.keyAllowed || !l.inFlow } rest
    else if inComment || c == ' ' || (c == '\t' && (l.inFlow || !l.keyAllowed)) then
      skipFrom inComment (place.after c) l rest
    else if c == '#' then skipFrom true (place.after c) l rest
    else (l, ⟨place, c :: rest⟩)

/-- The layout after the word at the start of a text, which no single character decides, and what
follows it. -/
def word? (l : Layout) (s : Source) : Option (Layout × Source) :=
  match s.rest with
  | [] => none
  | c :: rest =>
    if c == '-' && endsWord rest then return (← l.dash? s.place, s.skip 1)
    else if c == '?' && (l.inFlow || endsWord rest) then return (← l.key? s.place, s.skip 1)
    else if c == ':' && (l.inFlow || endsWord rest) then return (← l.value? s.place, s.skip 1)
    else if (c == '|' || c == '>') && !l.inFlow then do
      let (text, t) ← Block.read? l.columns.head? s
      return (← l.blockScalar? text, t)
    else if Plain.canStart l.inFlow s.rest then do
      let plain ← Plain.read? l.inFlow l.innerColumn s
      let l ← l.atom? (.scalar plain.text true) s.place
      return ({ l with keyAllowed := plain.endsLine }, plain.source)
    else none

/-- The layout after the token at the start of a text, and what follows it. -/
def next? (l : Layout) (s : Source) : Option (Layout × Source) :=
  match s.rest with
  | [] => none
  | c :: _ =>
    if s.place.column = 0 ∧ c = '%' then do
      let (token, t) ← Token.directive? s
      return (← l.outside? token, t)
    else if isDocumentMark s.place s.rest then
      return (← l.outside? (if c = '-' then .documentStart else .documentEnd), s.skip 3)
    else
      match c with
      | '[' => return (← l.openFlow? .openBracket s.place, s.skip 1)
      | '{' => return (← l.openFlow? .openBrace s.place, s.skip 1)
      | ']' => return (← l.closeFlow? .closeBracket, s.skip 1)
      | '}' => return (← l.closeFlow? .closeBrace, s.skip 1)
      | ',' => return (← l.comma?, s.skip 1)
      | '*' => do
        let (name, t) ← Token.name? s
        return (← l.atom? (.alias name) s.place, t)
      | '&' => do
        let (name, t) ← Token.name? s
        return (← l.atom? (.anchor name) s.place, t)
      | '!' => do
        let (tag, t) ← Tag.read? l.inFlow s
        return (← l.atom? (.tag tag) s.place, t)
      | '\'' | '\"' => do
        let (text, t) ← Quoted.read? s
        return (← l.atom? (.scalar text false) s.place, t)
      | _ => l.word? s

/-- The tokens of a layout and of the text that follows it and ends at an index. Each token leads on
to a later place. -/
def tokensFrom? (last : Nat) (l : Layout) (s : Source) : Option (List Token) := do
  let (l, t) := l.skipFrom false s.place s.rest
  let l ← l.forgetStale? t.place
  let l := l.closeBehind t.place.column
  if t.rest.isEmpty then l.finish?
  else
    let (l, t) ← l.next? t
    if s.place.index < last ∧ s.place.index < t.place.index then tokensFrom? last l t else none
termination_by last - s.place.index

end Layout

def tokens? (text : String) : Option (List Token) := do
  let s ← Source.ofText? text
  Layout.start.tokensFrom? (s.place.index + s.rest.length) s

end NetLiteral.Yaml
