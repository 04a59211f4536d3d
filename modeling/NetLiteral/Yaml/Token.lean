import NetLiteral.Yaml.Tag

/-!
# Tokens of YAML

What a document is made of once indentation is understood: block collections and keys are marked
explicitly, and every scalar is one token.
-/

namespace NetLiteral.Yaml

inductive Token
  /-- The version of the language that a document is written in. -/
  | version (major minor : Nat)
  /-- A handle for tags with what it stands for. -/
  | handle (name : String) (meaning : String)
  | documentStart
  | documentEnd
  | blockSeq
  | blockMap
  | blockEnd
  | openBracket
  | closeBracket
  | openBrace
  | closeBrace
  | dash
  | comma
  | key
  | value
  | alias (name : String)
  | anchor (name : String)
  | tag (tag : Tag)
  | scalar (text : String) (isPlain : Bool)
  deriving DecidableEq, Repr

namespace Token

/-! ## Names -/

/-- The name after the indicator of an anchor or an alias at the start of a text, and what follows
it. -/
def name? (s : Source) : Option (String × Source) :=
  let (name, t) := (s.skip 1).span isNameChar
  let isOver := endsWord t.rest || startsWith ("?:,]\x7d%@\x60".contains ·) t.rest
  if name.isEmpty || !isOver then none else some (.ofList name, t)

/-! ## Directives -/

/-- A number of at most nine digits at the start of a text, and what follows it. -/
def number? (s : Source) : Option (Nat × Source) :=
  let (digits, t) := s.span Char.isDigit
  if digits.isEmpty || 9 < digits.length then none
  else some (digits.foldl (fun n c => 10 * n + (c.toNat - '0'.toNat)) 0, t)

/-- The version at the start of a text, and what follows it. -/
def version? (s : Source) : Option (Token × Source) := do
  let (major, s) ← number? (s.dropWhile isBlank)
  if startsWith (· == '.') s.rest then
    let (minor, s) ← number? (s.skip 1)
    return (version major minor, s)
  else none

/-- The handle at the start of a text with its meaning, and what follows them. -/
def handle? (s : Source) : Option (Token × Source) := do
  let s := s.dropWhile isBlank
  let (name, t) := (s.skip 1).span isNameChar
  let isClosed := startsWith (· == '!') t.rest
  if startsWith (· == '!') s.rest && (isClosed || name.isEmpty) then
    let t := if isClosed then t.skip 1 else t
    let (meaning, u) ← Tag.uri? true (t.dropWhile isBlank)
    if startsWith isBlank t.rest && !meaning.isEmpty && endsWord u.rest then
      let name := '!' :: (if isClosed then name ++ ['!'] else name)
      return (handle (.ofList name) (Tag.textOf meaning), u)
    else none
  else none

/-- The directive on the line at the start of a text, and what follows that line. -/
def directive? (s : Source) : Option (Token × Source) := do
  let (name, s) := (s.skip 1).span isNameChar
  if endsWord s.rest then
    let (token, s) ←
      if name = "YAML".toList then version? s else if name = "TAG".toList then handle? s else none
    return (token, ← s.nextLine?)
  else none

end Token

end NetLiteral.Yaml
