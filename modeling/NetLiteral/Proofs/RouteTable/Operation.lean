import NetLiteral.RouteTable

/-!
# Histories of a route table

A history is a list of operations on one table, each with its answer. What a table holds for a route
after a history is decided by the last operation that stored or dropped a value for that route.
-/

namespace NetLiteral.RouteTable

variable {f : Family} {α : Type}

/-- One use of a table. -/
inductive Operation (f : Family) (α : Type)
  | insert (r : Route f) (a : α)
  | remove (r : Route f)
  | clear
  /-- Replaces the table by that of a list of entries. -/
  | collect (es : List (Route f × α))
  | get (r : Route f)
  | lookup (a : Address f)
  | containing (a : Address f)
  | entries
  | size
  | isEmpty

/-- What an operation gives back. -/
inductive Answer (f : Family) (α : Type)
  | nothing
  | value (a : Option α)
  | entry (e : Option (Route f × α))
  | entries (es : List (Route f × α))
  | number (n : Nat)
  | flag (b : Bool)

/-- The answer to an operation, and the table after it. -/
def step (t : RouteTable f α) : Operation f α → Logged (Answer f α × RouteTable f α)
  | .insert r a => do
    let (replaced, t') ← t.insert r a
    return (.value replaced, t')
  | .remove r => do
    let (removed, t') ← t.remove r
    return (.value removed, t')
  | .clear => do
    return (.nothing, ← t.clear)
  | .collect es => return (.nothing, ofList es)
  | .get r => return (.value (t.get? r), t)
  | .lookup a => do
    return (.entry (← t.lookup a), t)
  | .containing a => return (.entries (t.containing a), t)
  | .entries => return (.entries t.entries, t)
  | .size => return (.number t.size, t)
  | .isEmpty => return (.flag t.isEmpty, t)

/-- The answers to the operations of a history, and the table after it. -/
def run (t : RouteTable f α) :
    List (Operation f α) → Logged (List (Answer f α) × RouteTable f α)
  | [] => return ([], t)
  | op :: ops => do
    let (answer, t') ← t.step op
    let (answers, t'') ← run t' ops
    return (answer :: answers, t'')

/-- The table that a history leaves of an empty one. -/
def after (ops : List (Operation f α)) : RouteTable f α :=
  (run .empty ops).value.2

/-- The value of the last entry for a route. -/
def lastValue? (r : Route f) (es : List (Route f × α)) : Option α :=
  (es.reverse.find? fun e => e.1 = r).map Prod.snd

/-- What an operation leaves stored for a route, if it decides that at all. -/
def Operation.decides (r : Route f) : Operation f α → Option (Option α)
  | insert s a => if s = r then some (some a) else none
  | remove s => if s = r then some none else none
  | clear => some none
  | collect es => some (lastValue? r es)
  | _ => none

/-- The routes that an operation hands to a table to keep. -/
def Operation.stores : Operation f α → List (Route f)
  | insert r _ => [r]
  | collect es => es.map Prod.fst
  | _ => []

/-- The routes in an answer. -/
def Answer.routes : Answer f α → List (Route f)
  | entry e => (e.map Prod.fst).toList
  | entries es => es.map Prod.fst
  | _ => []

/-- What a history leaves stored for a route: the last operation that decides it does. -/
def lastStored? (ops : List (Operation f α)) (r : Route f) : Option α :=
  (ops.reverse.findSome? (Operation.decides r)).join

/-- The routes of a table, in its order. -/
def keys (t : RouteTable f α) : List (Route f) :=
  t.entries.map Prod.fst

/-- A history shows a route if it leaves it in its table or gives it in one of its answers. -/
def Shows (ops : List (Operation f α)) (r : Route f) : Prop :=
  r ∈ (after ops).keys ∨ ∃ answer ∈ (run empty ops).value.1, r ∈ answer.routes

end NetLiteral.RouteTable
