import NetLiteral.Yaml.Source

/-!
# Tags

A tag is written in angle brackets or as a handle and a suffix, where the handle stands for the
start of a tag. A character that cannot be written is given by its octets, each as a per cent sign
and two hexadecimal digits.
-/

namespace NetLiteral.Yaml

/-- A tag as it is written. A tag in angle brackets has no handle. -/
structure Tag where
  handle : String
  suffix : String
  deriving DecidableEq, Repr

namespace Tag

/-! ## Escaped octets -/

/-- Whether a character may stand for itself in a tag. -/
def isUriChar (isVerbatim : Bool) (c : Char) : Bool :=
  isNameChar c || ";/?:@&=+$.!~*'()".contains c || (isVerbatim && ",[]".contains c)

/-- How many octets of a character follow its first one. -/
def followers? (octet : Nat) : Option Nat :=
  if octet < 0x80 then some 0
  else if octet / 0x20 = 6 then some 1
  else if octet / 0x10 = 14 then some 2
  else if octet / 0x08 = 30 then some 3
  else none

/-- The octets at the start of a text, where `left` of them are still to come for a character that
has been started, and what follows them. -/
def uriFrom? (isVerbatim : Bool) (left : Nat) (place : Place) :
    List Char → Option (List Char × Source)
  | '%' :: a :: b :: rest => do
    let octet := 16 * (← hexDigit? a) + (← hexDigit? b)
    let left ← if left = 0 then followers? octet
      else if octet / 0x40 = 2 then some (left - 1) else none
    let (cs, s) ← uriFrom? isVerbatim left (((place.after '%').after a).after b) rest
    return (Char.ofNat octet :: cs, s)
  | c :: rest =>
    if left = 0 && isUriChar isVerbatim c then do
      let (cs, s) ← uriFrom? isVerbatim 0 (place.after c) rest
      return (c :: cs, s)
    else if left = 0 && c != '%' then some ([], ⟨place, c :: rest⟩)
    else none
  | [] => if left = 0 then some ([], ⟨place, []⟩) else none

/-- The octets at the start of a text, and what follows them. -/
def uri? (isVerbatim : Bool) (s : Source) : Option (List Char × Source) :=
  uriFrom? isVerbatim 0 s.place s.rest

/-- The text that octets stand for; an octet zero ends it. -/
def textOf (octets : List Char) : String :=
  .ofList (octets.takeWhile (· != '\x00'))

/-! ## Tags -/

/-- The tag at the start of a text, without a look at what follows it. -/
def start? (s : Source) : Option (Tag × Source) := do
  if startsWith (· == '<') (s.rest.drop 1) then
    let (suffix, t) ← uri? true (s.skip 2)
    if suffix.isEmpty || !startsWith (· == '>') t.rest then none
    else return (⟨"", textOf suffix⟩, t.skip 1)
  else
    let (name, t) := (s.skip 1).span isNameChar
    if startsWith (· == '!') t.rest then
      let (suffix, t) ← uri? false (t.skip 1)
      if suffix.isEmpty then none
      else return (⟨.ofList ('!' :: (name ++ ['!'])), textOf suffix⟩, t)
    else
      let (more, t) ← uri? false t
      let suffix := textOf (name ++ more)
      return (if suffix.isEmpty then ⟨"", "!"⟩ else ⟨"!", suffix⟩, t)

/-- The tag at the start of a text, which has to end a word there, and what follows it. -/
def read? (inFlow : Bool) (s : Source) : Option (Tag × Source) := do
  let (tag, t) ← start? s
  if endsWord t.rest || (inFlow && startsWith (· == ',') t.rest) then return (tag, t) else none

/-- What handles stand for when a document does not say so. -/
def standardHandles : List (String × String) :=
  [("!", "!"), ("!!", "tag:yaml.org,2002:")]

/-- The tag in full, if its handle stands for something. The handles of the document come first. -/
def resolve? (handles : List (String × String)) (tag : Tag) : Option String :=
  if tag.handle.isEmpty then some tag.suffix
  else (handles.lookup tag.handle).map (· ++ tag.suffix)

end Tag

end NetLiteral.Yaml
