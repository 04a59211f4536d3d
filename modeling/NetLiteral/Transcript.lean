import NetLiteral.Log.Record

/-!
# Transcripts

What a program puts out while it works: texts on its two outputs and records for its log, in one
order. The log shares an output with the messages, so that order is visible.
-/

namespace NetLiteral

inductive Emission
  | out (text : String)
  | err (text : String)
  | record (r : Log.Record)
  deriving DecidableEq, Repr

namespace Emission

def outText : Emission → String
  | out text => text
  | _ => ""

/-- The text of a message, where `line` writes the records of the log. -/
def errText (line : Log.Record → String) : Emission → String
  | out _ => ""
  | err text => text
  | record r => line r

def record? : Emission → Option Log.Record
  | record r => some r
  | _ => none

def stdout (es : List Emission) : String :=
  String.join (es.map outText)

/-- All messages put out, with the records of the log written by `line`. -/
def stderr (line : Log.Record → String) (es : List Emission) : String :=
  String.join (es.map (errText line))

end Emission

/-- A result together with what was put out on the way to it. -/
structure Transcript (α : Type) where
  value : α
  emissions : List Emission
  deriving DecidableEq, Repr

namespace Transcript

variable {α β : Type}

def silent (a : α) : Transcript α :=
  ⟨a, []⟩

def ofLogged (x : Logged α) : Transcript α :=
  ⟨x.value, x.log.map .record⟩

def emit (e : Emission) : Transcript Unit :=
  ⟨(), [e]⟩

def emitAll (es : List Emission) : Transcript Unit :=
  ⟨(), es⟩

/-- Continues with a result; what comes later is put out later. -/
def andThen (x : Transcript α) (f : α → Transcript β) : Transcript β :=
  let y := f x.value
  ⟨y.value, x.emissions ++ y.emissions⟩

instance : Monad Transcript where
  pure := silent
  bind := andThen

@[simp] theorem value_pure (a : α) : (pure a : Transcript α).value = a :=
  rfl

@[simp] theorem emissions_pure (a : α) : (pure a : Transcript α).emissions = [] :=
  rfl

@[simp] theorem value_bind (x : Transcript α) (f : α → Transcript β) :
    (x >>= f).value = (f x.value).value :=
  rfl

@[simp] theorem emissions_bind (x : Transcript α) (f : α → Transcript β) :
    (x >>= f).emissions = x.emissions ++ (f x.value).emissions :=
  rfl

def log (x : Transcript α) : List Log.Record :=
  x.emissions.filterMap Emission.record?

end Transcript

end NetLiteral
