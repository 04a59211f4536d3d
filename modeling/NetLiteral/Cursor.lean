import NetLiteral.ByteClass

/-!
# Cursors

A cursor stands between the bytes already consumed and the bytes still unread. Moving it never
changes the text, which is always the two parts joined; giving input back is going back to an
earlier cursor.
-/

namespace NetLiteral

/-- A place in a text: what was consumed before it and what is unread after it. -/
structure Cursor where
  consumed : Bytes
  unread : Bytes
  deriving DecidableEq, Repr

namespace Cursor

def ofBytes (bs : Bytes) : Cursor :=
  ⟨[], bs⟩

def ofString (s : String) : Cursor :=
  ofBytes (Bytes.ofString s)

def input (c : Cursor) : Bytes :=
  c.consumed ++ c.unread

def position (c : Cursor) : Nat :=
  c.consumed.length

def isAtEnd (c : Cursor) : Bool :=
  c.unread.isEmpty

def peek (c : Cursor) : Option UInt8 :=
  c.unread.head?

def eat? (c : Cursor) (b : UInt8) : Option Cursor :=
  match c.unread with
  | [] => none
  | x :: rest => if x = b then some ⟨c.consumed ++ [b], rest⟩ else none

/-- The longest run of ASCII bytes of a class. -/
def run (c : Cursor) (isMember : UInt8 → Bool) : Bytes :=
  c.unread.takeWhile fun b => Bytes.isAscii b && isMember b

def advance (c : Cursor) (n : Nat) : Cursor :=
  ⟨c.consumed ++ c.unread.take n, c.unread.drop n⟩

/-- The bytes consumed since an earlier offset. Nothing is checked: there are bytes also where no
text can be sliced out, between offsets inside a character, and none since an offset further on. -/
def since (c : Cursor) (start : Nat) : Bytes :=
  c.consumed.drop start

theorem input_eat? {c c' : Cursor} {b : UInt8} (h : c.eat? b = some c') : c'.input = c.input := by
  simp only [eat?] at h
  split at h
  next => cases h
  next x rest hc =>
    split at h
    next hx =>
      cases h
      simp [input, hc, hx]
    next => cases h

theorem input_advance (c : Cursor) (n : Nat) : (c.advance n).input = c.input := by
  simp [input, advance]

/-- A cursor is on a character boundary if it splits its text into two texts. -/
def OnBoundary (c : Cursor) : Prop :=
  ∃ before after : String, c.consumed = Bytes.ofString before ∧ c.unread = Bytes.ofString after

end Cursor

end NetLiteral
