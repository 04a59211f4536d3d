import NetLiteral.CommandLine.Argument
import NetLiteral.Kind
import NetLiteral.Numeral

/-!
# Invocations

What the arguments of the program ask for: options of the program itself, then the name of a
command, then the options and values of that command.
-/

namespace NetLiteral.CommandLine

/-! ## Options of the program -/

/-- The options of the program that take a value. -/
inductive GlobalOption
  | config
  | logLevel
  deriving DecidableEq, Repr

inductive GlobalFlag
  | json
  | version
  deriving DecidableEq, Repr

structure GlobalOptions where
  configPath : Option String
  logLevel : Option String
  json : Bool
  deriving DecidableEq, Repr

/-- The arguments before the name of a command. -/
def globalGrammar : Grammar GlobalOption GlobalFlag where
  options := [("config", .config), ("log-level", .logLevel)]
  flags := [("json", .json), ("version", .version)]
  letters := [('V', .version)]
  takesCommand := true

/-- Adds an item to the options of the program. The path of a settings file is not empty. -/
def GlobalOptions.add (o : GlobalOptions) :
    Item GlobalOption GlobalFlag → Except Interruption GlobalOptions
  | .value text => .error (.usage (.unexpectedArgument text))
  | .option .config value =>
    if value = "" then .error (.usage (.invalidValue "config" value))
    else return { o with configPath := ← setOnce "config" o.configPath value }
  | .option .logLevel value => return { o with logLevel := ← setOnce "log-level" o.logLevel value }
  | .flag .json =>
    if o.json then .error (.usage (.repeated "json")) else .ok { o with json := true }
  | .flag .version => .error .version

/-! ## Commands -/

inductive Command
  /-- Writes inputs in canonical form. -/
  | parse (kind : Kind) (inputs : List String)
  /-- Lists the hosts of a network. -/
  | hosts (route : String) (limit : Option Nat)
  /-- Looks up an address in a list of routes. -/
  | lookup (address : String) (routes : List String)
  deriving DecidableEq, Repr

/-- The arguments of a command with a single option. -/
def commandGrammar (option : String) : Grammar Unit Empty where
  options := [(option, ())]
  flags := []
  letters := []
  takesCommand := false

def require {α : Type} (what : String) (value : Option α) : Except Interruption α :=
  match value with
  | some a => .ok a
  | none => .error (.usage (.missingArgument what))

/-- Adds an item to a kind and a list of inputs. -/
def addParse (state : Option Kind × List String) :
    Item Unit Empty → Except Interruption (Option Kind × List String)
  | .value text => .ok (state.1, state.2 ++ [text])
  | .option () value =>
    match Kind.ofName? value with
    | some kind => return (← setOnce "kind" state.1 kind, state.2)
    | none => .error (.usage (.invalidValue "kind" value))

/-- Reads the arguments of `parse`. Without a kind, inputs are hosts. -/
def readParse (args : List String) : Except Interruption Command := do
  let ((kind, inputs), _) ← (commandGrammar "kind").read addParse (none, []) args
  if inputs.isEmpty then throw (.usage (.missingArgument "inputs"))
  return .parse (kind.getD .host) inputs

def addHosts (state : Option String × Option Nat) :
    Item Unit Empty → Except Interruption (Option String × Option Nat)
  | .value text =>
    if state.1.isSome then .error (.usage (.unexpectedArgument text))
    else .ok (some text, state.2)
  | .option () value =>
    match Numeral.word? value with
    | some limit => return (state.1, ← setOnce "limit" state.2 limit)
    | none => .error (.usage (.invalidValue "limit" value))

def readHosts (args : List String) : Except Interruption Command := do
  let ((route, limit), _) ← (commandGrammar "limit").read addHosts (none, none) args
  return .hosts (← require "route" route) limit

/-- Adds an item to an address and a list of routes. -/
def addLookup (state : Option String × List String) :
    Item Unit Empty → Except Interruption (Option String × List String)
  | .value text =>
    if state.1.isSome then .error (.usage (.unexpectedArgument text))
    else .ok (some text, state.2)
  | .option () value => .ok (state.1, state.2 ++ [value])

def readLookup (args : List String) : Except Interruption Command := do
  let ((address, routes), _) ← (commandGrammar "route").read addLookup (none, []) args
  let address ← require "address" address
  if routes.isEmpty then throw (.usage (.missingArgument "route"))
  return .lookup address routes

/-- The names of commands and how their arguments are read. -/
def commands : List (String × (List String → Except Interruption Command)) :=
  [("parse", readParse), ("hosts", readHosts), ("lookup", readLookup)]

/-- Reads a request for help on one command or on all. -/
def readHelp (args : List String) : Interruption :=
  match args with
  | [] => .help
  | name :: rest =>
    if name ≠ "help" ∧ (commands.lookup name).isNone then .usage (.unknownCommand name)
    else
      match rest with
      | [] => .help
      | name :: _ => .usage (.unknownCommand name)

/-- Reads the name of a command and its arguments. -/
def readCommand (args : List String) : Except Interruption Command :=
  match args with
  | [] => .error (.usage .missingCommand)
  | name :: args =>
    match commands.lookup name with
    | some read => read args
    | none => .error (if name = "help" then readHelp args else .usage (.unknownCommand name))

/-! ## The whole -/

/-- A command together with the options of the program. -/
structure Invocation where
  options : GlobalOptions
  command : Command
  deriving DecidableEq, Repr

def Invocation.read (args : List String) : Except Interruption Invocation := do
  let (options, rest) ← globalGrammar.read GlobalOptions.add ⟨none, none, false⟩ args
  return ⟨options, ← readCommand rest⟩

end NetLiteral.CommandLine
