import NetLiteral.Yaml.Character

/-!
# Places in a text

What is not read yet of a text, together with the place where it starts. The column of a place
decides which collection a value belongs to.
-/

namespace NetLiteral.Yaml

/-- A place in a text, counted in characters from zero. -/
structure Place where
  index : Nat
  line : Nat
  column : Nat
  deriving DecidableEq, Repr

namespace Place

def start : Place :=
  ⟨0, 0, 0⟩

def after (p : Place) (c : Char) : Place :=
  if isBreak c then ⟨p.index + 1, p.line + 1, 0⟩ else ⟨p.index + 1, p.line, p.column + 1⟩

end Place

/-- Whether a line starts with the three dashes or dots between which a document stands. -/
def isDocumentMark (place : Place) (rest : List Char) : Bool :=
  place.column == 0 && ["---".toList, "...".toList].contains (rest.take 3) && endsWord (rest.drop 3)

structure Source where
  place : Place
  rest : List Char
  deriving DecidableEq, Repr

namespace Source

/-- A whole text, if all of its characters are allowed. A byte order mark at the start is passed
over, but takes up a column. -/
def ofText? (text : String) : Option Source :=
  let cs := unifyBreaks text.toList
  if cs.all isAllowed then
    match cs with
    | '\ufeff' :: rest => some ⟨Place.start.after '\ufeff', rest⟩
    | rest => some ⟨.start, rest⟩
  else none

def skip : Nat → Source → Source
  | n + 1, ⟨place, c :: rest⟩ => skip n ⟨place.after c, rest⟩
  | _, s => s

/-- The longest start of a text whose characters are in a class, and what follows it. -/
def spanFrom (p : Char → Bool) (place : Place) : List Char → List Char × Source
  | [] => ([], ⟨place, []⟩)
  | c :: rest =>
    if p c then
      let (cs, s) := spanFrom p (place.after c) rest
      (c :: cs, s)
    else ([], ⟨place, c :: rest⟩)

/-- The longest start of the text whose characters are in a class, and what follows it. -/
def span (p : Char → Bool) (s : Source) : List Char × Source :=
  spanFrom p s.place s.rest

/-- The text without its longest start whose characters are in a class. -/
def dropWhile (p : Char → Bool) (s : Source) : Source :=
  (s.span p).2

/-- The text after the line end that ends a line of nothing but blanks and a comment. -/
def nextLine? (s : Source) : Option Source :=
  let s := s.dropWhile isBlank
  let s := if startsWith (· == '#') s.rest then s.dropWhile (!isBreak ·) else s
  if endsLine s.rest then some (s.skip 1) else none

end Source

end NetLiteral.Yaml
