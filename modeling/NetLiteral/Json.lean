import NetLiteral.TextForm

/-!
# JSON

JSON values, their indented text, and the reading of literals from them. Fields keep their order.
Values of this library are JSON strings that hold their canonical text.
-/

namespace NetLiteral

/-- A JSON value with integers as its only numbers. -/
inductive Json
  | null
  | bool (b : Bool)
  | num (n : Int)
  | str (s : String)
  | arr (items : List Json)
  | obj (fields : List (String × Json))

namespace Json

instance : Inhabited Json :=
  ⟨null⟩

/-! ## Text -/

def escapeChar (c : Char) : List Char :=
  match c with
  | '\"' => ['\\', '\"']
  | '\\' => ['\\', '\\']
  | '\n' => ['\\', 'n']
  | '\r' => ['\\', 'r']
  | '\t' => ['\\', 't']
  | '\x08' => ['\\', 'b']
  | '\x0c' => ['\\', 'f']
  | c =>
    if c.toNat < 0x20 then
      ['\\', 'u', '0', '0'] ++ Nat.toDigits 16 (c.toNat / 16) ++ Nat.toDigits 16 (c.toNat % 16)
    else [c]

def quote (s : String) : String :=
  "\"" ++ String.ofList (s.toList.flatMap escapeChar) ++ "\""

/-- The start of a new line at a depth of nesting. -/
def newline (depth : Nat) : String :=
  "\n" ++ String.ofList (List.replicate (2 * depth) ' ')

/-- Items between brackets, each on a line of its own. -/
def block (opening closing : String) (depth : Nat) (items : List String) : String :=
  if items.isEmpty then opening ++ closing
  else
    let lines := items.map fun item => newline (depth + 1) ++ item
    opening ++ ",".intercalate lines ++ newline depth ++ closing

mutual

/-- The text of a value at a depth of nesting. -/
def render (depth : Nat) : Json → String
  | null => "null"
  | bool true => "true"
  | bool false => "false"
  | num n => toString n
  | str s => quote s
  | arr items => block "[" "]" depth (renderItems (depth + 1) items)
  | obj fields => block "\x7b" "\x7d" depth (renderFields (depth + 1) fields)

def renderItems (depth : Nat) : List Json → List String
  | [] => []
  | item :: items => render depth item :: renderItems depth items

def renderFields (depth : Nat) : List (String × Json) → List String
  | [] => []
  | (key, value) :: fields =>
    (quote key ++ ": " ++ render depth value) :: renderFields depth fields

end

/-- The text of a value over several lines, indented by two spaces. -/
def pretty (j : Json) : String :=
  j.render 0

/-! ## Literals in JSON -/

def kind : Json → String
  | null => "null"
  | bool true => "boolean `true`"
  | bool false => "boolean `false`"
  | num n => s!"integer `{n}`"
  | str s => "string " ++ quote s
  | arr _ => "sequence"
  | obj _ => "map"

/-- Why a value is not the JSON form of a literal. -/
inductive DecodeFailure
  | notString (j : Json)
  | rejected (e : Failure)

def DecodeFailure.message : DecodeFailure → String
  | notString j => "invalid type: " ++ j.kind ++ ", expected a string"
  | rejected e => e.message

def ofLiteral {α : Type} [TextForm α] (a : α) : Json :=
  str (TextForm.text a)

def toLiteral (α : Type) [TextForm α] : Json → Logged (Except DecodeFailure α)
  | str s => do return (← TextForm.read α s).mapError .rejected
  | j => .quiet (.error (.notString j))

end Json

end NetLiteral
