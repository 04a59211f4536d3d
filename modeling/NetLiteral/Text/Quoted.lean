import NetLiteral.Text.Printable

/-!
# Quoted texts

Log records show a text between quotes, with backslash escapes for the quote, the backslash, the
usual controls, and every character that would not show up on its own. An apostrophe stands for
itself.
-/

namespace NetLiteral.Text.Quoted

/-- An escape by code point, in lowercase hexadecimal. -/
def codeEscape (c : Char) : List Char :=
  ['\\', 'u', '{'] ++ Nat.toDigits 16 c.toNat ++ ['}']

def encodeChar (c : Char) : List Char :=
  match c with
  | '\x00' => ['\\', '0']
  | '\t' => ['\\', 't']
  | '\n' => ['\\', 'n']
  | '\r' => ['\\', 'r']
  | '\"' => ['\\', '\"']
  | '\\' => ['\\', '\\']
  | c => if isPrintable c then [c] else codeEscape c

def encode (s : String) : String :=
  String.ofList (['\"'] ++ s.toList.flatMap encodeChar ++ ['\"'])

/-- A text without the quotes at its two ends, however many there are. -/
def trim (s : String) : String :=
  let isQuote (c : Char) : Bool := c == '\"'
  String.ofList ((s.toList.dropWhile isQuote).reverse.dropWhile isQuote).reverse

end NetLiteral.Text.Quoted
