import NetLiteral.Text.CaseIgnorable
import NetLiteral.Text.CaseMapping
import NetLiteral.Text.Cased

/-!
# Lowercase of texts

Lowercase in the sense of Unicode, without regard to language. Characters map one by one with two
exceptions: the capital I with a dot keeps its dot as a combining mark, and a capital sigma at the
end of a word becomes a final sigma.
-/

namespace NetLiteral.Text

/-- Whether the first character that is not case-ignorable has a case. -/
def startsCased (cs : List Char) : Bool :=
  (cs.dropWhile isCaseIgnorable).head?.any isCased

/-- The lowercase of a character between those before it, nearest first, and those after it. -/
def lowerBetween (before : List Char) (c : Char) (after : List Char) : List Char :=
  if c = 'Σ' then [if startsCased before && !startsCased after then 'ς' else 'σ']
  else if c = 'İ' then ['i', '\u0307']
  else [lowerChar c]

/-- The lowercase of characters that follow `before`, which is given nearest first. -/
def lowerAfter : List Char → List Char → List Char
  | _, [] => []
  | before, c :: after => lowerBetween before c after ++ lowerAfter (c :: before) after

def lower (s : String) : String :=
  String.ofList (lowerAfter [] s.toList)

end NetLiteral.Text
