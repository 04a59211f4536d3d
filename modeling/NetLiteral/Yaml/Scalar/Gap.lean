import NetLiteral.Yaml.Character

/-!
# Gaps between words

A scalar may go on over several lines. A gap between two of its words that stays on one line is kept
as it is; in a gap that crosses lines the blanks go, a single line end becomes a space, and of
several line ends the first goes.
-/

namespace NetLiteral.Yaml

/-- What stands between two words of a scalar. -/
inductive Gap
  /-- Blanks on one line, the last one first. -/
  | within (blanks : List Char)
  /-- Line ends, the last one first; the first of all is missing if it was escaped. -/
  | across (first : Option Char) (further : List Char)
  deriving DecidableEq, Repr

namespace Gap

def empty : Gap :=
  within []

/-- Whether a gap goes over the end of a line. -/
def crossesLine : Gap → Bool
  | within _ => false
  | across .. => true

def add (c : Char) : Gap → Gap
  | within blanks => if isBreak c then across (some c) [] else within (c :: blanks)
  | across first further => across first (if isBreak c then c :: further else further)

def text : Gap → List Char
  | within blanks => blanks.reverse
  | across (some '\n') [] => [' ']
  | across (some '\n') further => further.reverse
  | across first further => first.toList ++ further.reverse

end Gap

end NetLiteral.Yaml
