/-!
# Arguments

Arguments are read one after another as items: values, options with a value, and flags. The first
argument that makes no sense ends the reading, and so does a request for help; arguments after it
are not looked at.
-/

namespace NetLiteral.CommandLine

inductive UsageError
  | missingCommand
  | unknownCommand (name : String)
  | unknownOption (argument : String)
  | missingValue (option : String)
  | unexpectedValue (option : String)
  | repeated (option : String)
  | invalidValue (option : String) (value : String)
  | missingArgument (what : String)
  | unexpectedArgument (argument : String)
  deriving DecidableEq, Repr

def UsageError.message : UsageError → String
  | missingCommand => "a command is required"
  | unknownCommand name => "unknown command '" ++ name ++ "'"
  | unknownOption argument => "unexpected argument '" ++ argument ++ "'"
  | missingValue option => "a value is required for '--" ++ option ++ "'"
  | unexpectedValue option => "'--" ++ option ++ "' takes no value"
  | repeated option => "'--" ++ option ++ "' cannot be used more than once"
  | invalidValue option value => "invalid value '" ++ value ++ "' for '--" ++ option ++ "'"
  | missingArgument what => "a value is required for '" ++ what ++ "'"
  | unexpectedArgument argument => "unexpected argument '" ++ argument ++ "'"

/-- Why arguments do not ask for a command to be run. -/
inductive Interruption
  | usage (e : UsageError)
  | help
  | version
  deriving DecidableEq, Repr

/-! ## Forms of arguments -/

inductive Argument
  | value (text : String)
  /-- Two dashes, after which every argument is a value. -/
  | endOfOptions
  | long (name : String) (attached : Option String)
  | short (letters : List Char)
  deriving DecidableEq, Repr

/-- The name of a long option and the text after its equals sign. -/
def splitAttached (cs : List Char) : String × Option String :=
  match cs.dropWhile (· != '=') with
  | [] => (.ofList cs, none)
  | _ :: attached => (.ofList (cs.takeWhile (· != '=')), some (.ofList attached))

/-- The form of an argument. A single dash is a value. -/
def Argument.ofString (s : String) : Argument :=
  match s.toList with
  | ['-', '-'] => endOfOptions
  | '-' :: '-' :: cs => long (splitAttached cs).1 (splitAttached cs).2
  | '-' :: c :: cs => short (c :: cs)
  | _ => value s

/-! ## Items -/

/-- What an argument, or an option together with its value, amounts to. -/
inductive Item (ο φ : Type)
  | value (text : String)
  | option (id : ο) (value : String)
  | flag (id : φ)

/-- The options and flags that are understood. Help can be asked for everywhere. -/
structure Grammar (ο φ : Type) where
  options : List (String × ο)
  flags : List (String × φ)
  /-- Flags by a single letter. -/
  letters : List (Char × φ)
  /-- Whether the first value is the name of a command, at which the reading stops. -/
  takesCommand : Bool

namespace Grammar

variable {ο φ : Type}

/-- A flag given by letters, of which only the first is looked at. -/
def ofLetters (g : Grammar ο φ) (letters : List Char) : Except Interruption (Item ο φ) :=
  match letters with
  | [] => .error (.usage (.unknownOption "-"))
  | 'h' :: _ => .error .help
  | c :: _ =>
    match g.letters.lookup c with
    | some id => .ok (.flag id)
    | none => .error (.usage (.unknownOption (.ofList ['-', c])))

def ofFlag (g : Grammar ο φ) (name : String) (attached : Option String) :
    Except Interruption (Item ο φ) :=
  let found :=
    if name = "help" then some (.error .help) else (g.flags.lookup name).map (.ok ∘ .flag)
  match found, attached with
  | some item, none => item
  | some _, some _ => .error (.usage (.unexpectedValue name))
  | none, _ => .error (.usage (.unknownOption ("--" ++ name)))

/-- The items of arguments in order, and the arguments from the name of a command on. An error is
the last item. -/
def scan (g : Grammar ο φ) : List String → List (Except Interruption (Item ο φ)) × List String
  | [] => ([], [])
  | arg :: args =>
    match Argument.ofString arg with
    | .value text =>
      if g.takesCommand then ([], arg :: args)
      else
        let (items, rest) := scan g args
        (.ok (.value text) :: items, rest)
    | .endOfOptions =>
      if g.takesCommand then ([.error (.usage .missingCommand)], [])
      else (args.map fun text => .ok (.value text), [])
    | .short letters =>
      let (items, rest) := scan g args
      (g.ofLetters letters :: items, rest)
    | .long name attached =>
      match g.options.lookup name, attached, args with
      | none, _, args =>
        let (items, rest) := scan g args
        (g.ofFlag name attached :: items, rest)
      | some id, some value, args =>
        let (items, rest) := scan g args
        (.ok (.option id value) :: items, rest)
      | some _, none, [] => ([.error (.usage (.missingValue name))], [])
      | some id, none, next :: args =>
        match Argument.ofString next with
        | .value value =>
          let (items, rest) := scan g args
          (.ok (.option id value) :: items, rest)
        | _ => ([.error (.usage (.missingValue name))], [])

/-- Reads items in order into a state, until one of them is an error. -/
def read {σ : Type} (g : Grammar ο φ) (step : σ → Item ο φ → Except Interruption σ) (start : σ)
    (args : List String) : Except Interruption (σ × List String) := do
  let (items, rest) := g.scan args
  let state ← items.foldlM (fun state item => do step state (← item)) start
  return (state, rest)

end Grammar

/-- Gives an option its value, which it may have only once. -/
def setOnce {α : Type} (option : String) (old : Option α) (new : α) :
    Except Interruption (Option α) :=
  if old.isSome then .error (.usage (.repeated option)) else .ok (some new)

end NetLiteral.CommandLine
