/-!
# Log records

What the library reports while it works. A computation that may report is a `Logged` value: its
result together with its records in the order in which they arose.
-/

namespace NetLiteral

namespace Log

inductive Level
  | error
  | warn
  | info
  | debug
  | trace
  deriving DecidableEq, Repr

/-- How talkative a log has to be to show records of a level. -/
def Level.verbosity : Level → Nat
  | error => 1
  | warn => 2
  | info => 3
  | debug => 4
  | trace => 5

/-- One report: its level, the component it is attributed to, and its message. -/
structure Record where
  level : Level
  component : Option String
  message : String
  deriving DecidableEq, Repr

/-- Whether a log with the given maximum verbosity shows a record. -/
def Record.isShown (verbosity : Nat) (r : Record) : Bool :=
  r.level.verbosity ≤ verbosity

end Log

/-- A result together with the records of the computation that led to it. -/
structure Logged (α : Type) where
  value : α
  log : List Log.Record
  deriving DecidableEq, Repr

namespace Logged

variable {α β : Type}

def quiet (a : α) : Logged α :=
  ⟨a, []⟩

def emit (r : Log.Record) : Logged Unit :=
  ⟨(), [r]⟩

/-- Continues with a result, the later records after the earlier ones. -/
def andThen (x : Logged α) (f : α → Logged β) : Logged β :=
  let y := f x.value
  ⟨y.value, x.log ++ y.log⟩

/-- Joins computations that do not depend on each other. -/
def collect (xs : List (Logged α)) : Logged (List α) :=
  ⟨xs.map value, xs.flatMap log⟩

instance : Monad Logged where
  pure := quiet
  bind := andThen

@[simp] theorem value_pure (a : α) : (pure a : Logged α).value = a :=
  rfl

@[simp] theorem log_pure (a : α) : (pure a : Logged α).log = [] :=
  rfl

@[simp] theorem value_bind (x : Logged α) (f : α → Logged β) :
    (x >>= f).value = (f x.value).value :=
  rfl

@[simp] theorem log_bind (x : Logged α) (f : α → Logged β) :
    (x >>= f).log = x.log ++ (f x.value).log :=
  rfl

end Logged

end NetLiteral
