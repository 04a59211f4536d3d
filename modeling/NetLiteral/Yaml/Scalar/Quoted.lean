import NetLiteral.Yaml.Scalar.Gap
import NetLiteral.Yaml.Source

/-!
# Quoted scalars

Between single quotes a doubled quote is a quote. Between double quotes a backslash starts an
escape: a letter for a control character, the code point of a character in hexadecimal digits, or a
line end that goes. A scalar whose quote is never closed, or that a mark of the document cuts off,
cannot be read.
-/

namespace NetLiteral.Yaml.Quoted

/-! ## Single quotes -/

/-- The rest of a scalar in single quotes. The characters so far are in reverse. -/
def singleFrom? (acc : List Char) (gap : Gap) (place : Place) :
    List Char → Option (String × Source)
  | [] => none
  | '\'' :: '\'' :: rest =>
    singleFrom? ('\'' :: (gap.text.reverse ++ acc)) .empty ((place.after '\'').after '\'') rest
  | c :: rest =>
    if isSpace c then singleFrom? acc (gap.add c) (place.after c) rest
    else if isDocumentMark place (c :: rest) then none
    else if c = '\'' then
      some (.ofList (gap.text.reverse ++ acc).reverse, ⟨place.after c, rest⟩)
    else singleFrom? (c :: (gap.text.reverse ++ acc)) .empty (place.after c) rest

/-! ## Double quotes -/

/-- The character that a letter after a backslash stands for. -/
def escape? : Char → Option Char
  | '0' => some '\x00'
  | 'a' => some '\x07'
  | 'b' => some '\x08'
  | 't' => some '\t'
  | '\t' => some '\t'
  | 'n' => some '\n'
  | 'v' => some '\x0b'
  | 'f' => some '\x0c'
  | 'r' => some '\r'
  | 'e' => some '\x1b'
  | ' ' => some ' '
  | '\"' => some '\"'
  | '/' => some '/'
  | '\\' => some '\\'
  | 'N' => some '\u0085'
  | '_' => some '\u00a0'
  | 'L' => some '\u2028'
  | 'P' => some '\u2029'
  | _ => none

/-- How many hexadecimal digits follow a letter after a backslash. -/
def codeLength? : Char → Option Nat
  | 'x' => some 2
  | 'u' => some 4
  | 'U' => some 8
  | _ => none

inductive Escape
  /-- No escape is being read. -/
  | none
  /-- A backslash. -/
  | started
  /-- Some digits of a code point, with the number of those that are still to come. -/
  | code (left : Nat) (value : Nat)
  deriving DecidableEq, Repr

/-- The rest of a scalar in double quotes. The characters so far are in reverse. -/
def doubleFrom? (escape : Escape) (acc : List Char) (gap : Gap) (place : Place) :
    List Char → Option (String × Source)
  | [] => none
  | c :: rest =>
    match escape with
    | .code left value => do
      let value := 16 * value + (← hexDigit? c)
      if 1 < left then doubleFrom? (.code (left - 1) value) acc gap (place.after c) rest
      else if value.isValidChar then
        doubleFrom? .none (Char.ofNat value :: acc) gap (place.after c) rest
      else none
    | .started =>
      if isBreak c then doubleFrom? .none acc (.across none []) (place.after c) rest
      else
        match codeLength? c, escape? c with
        | some n, _ => doubleFrom? (.code n 0) acc gap (place.after c) rest
        | none, some d => doubleFrom? .none (d :: acc) gap (place.after c) rest
        | none, none => none
    | .none =>
      if isSpace c then doubleFrom? .none acc (gap.add c) (place.after c) rest
      else if isDocumentMark place (c :: rest) then none
      else if c = '\"' then
        some (.ofList (gap.text.reverse ++ acc).reverse, ⟨place.after c, rest⟩)
      else if c = '\\' then
        doubleFrom? .started (gap.text.reverse ++ acc) .empty (place.after c) rest
      else doubleFrom? .none (c :: (gap.text.reverse ++ acc)) .empty (place.after c) rest

/-- The text of the quoted scalar that starts with the quote at the start of a text, and what
follows it. -/
def read? (s : Source) : Option (String × Source) :=
  match s.rest with
  | '\'' :: rest => singleFrom? [] .empty (s.place.after '\'') rest
  | '\"' :: rest => doubleFrom? .none [] .empty (s.place.after '\"') rest
  | _ => none

end NetLiteral.Yaml.Quoted
