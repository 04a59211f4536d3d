/-!
# Failures

Every reader of this library fails in one way: with the kind of literal it looked for, a byte
offset, and a reason. When several readers are tried on the same text, `Failure.furthest` chooses
the failure to report.
-/

namespace NetLiteral

/-- The kinds of literal a reader may look for. -/
inductive Literal
  | ipv4
  | ipv6
  | ethernet
  | label
  | hostname
  | integer
  | port
  | prefixLength
  | endpoint
  | route
  | host
  deriving DecidableEq, Repr

/-- The name of a kind of literal in messages. -/
def Literal.name : Literal → String
  | ipv4 => "IPv4 address"
  | ipv6 => "IPv6 address"
  | ethernet => "Ethernet address"
  | label => "hostname label"
  | hostname => "hostname"
  | integer => "integer"
  | port => "port number"
  | prefixLength => "prefix length"
  | endpoint => "endpoint"
  | route => "route"
  | host => "host"

inductive Reason
  /-- No byte of the literal's class stands at the offset. -/
  | empty
  /-- Bytes of the class stand there but do not form the literal. -/
  | malformed
  /-- A number lies outside the allowed range. -/
  | outOfRange
  /-- A label or hostname is longer than allowed. -/
  | tooLong
  /-- A separator or bracket is missing. -/
  | expected (c : Char)
  /-- The literal matched, and input is left over. -/
  | trailing
  deriving DecidableEq, Repr

def Reason.message : Reason → String
  | empty => "nothing to parse"
  | malformed => "malformed literal"
  | outOfRange => "value out of range"
  | tooLong => "literal too long"
  | expected c => s!"expected '{c}'"
  | trailing => "unexpected trailing input"

structure Failure where
  literal : Literal
  offset : Nat
  reason : Reason
  deriving DecidableEq, Repr

namespace Failure

def message (e : Failure) : String :=
  "invalid " ++ e.literal.name ++ " at offset " ++ toString e.offset ++ ": " ++ e.reason.message

/-- Orders failures by offset; at one offset, finding nothing at all ranks below any other reason.
-/
def rank (e : Failure) : Nat :=
  2 * e.offset + if e.reason = .empty then 0 else 1

theorem rank_lt_iff {e₁ e₂ : Failure} : e₁.rank < e₂.rank ↔
    e₁.offset < e₂.offset ∨
      e₁.offset = e₂.offset ∧ e₁.reason = .empty ∧ e₂.reason ≠ .empty := by
  rw [rank, rank]
  by_cases h₁ : e₁.reason = .empty <;> by_cases h₂ : e₂.reason = .empty <;>
    simp only [h₁, h₂, if_true, if_false, ne_eq, not_true_eq_false, not_false_eq_true, and_true,
      and_false, or_false] <;>
    omega

/-- Of two failed alternatives, the one that got further; the first one if neither did. -/
def furthest (e₁ e₂ : Failure) : Failure :=
  if e₁.rank < e₂.rank then e₂ else e₁

/-- The furthest of a list of failures, the first one if several got equally far. -/
def furthestOf : List Failure → Option Failure
  | [] => none
  | e :: es => some (es.foldl furthest e)

end Failure

end NetLiteral
