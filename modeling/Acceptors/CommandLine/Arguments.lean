import Acceptors.Journal

/-!
Contract: what a list of command line arguments asks for.

Owns: the commands, their arguments and options, and the reasons for refusing
a list of arguments.
Does not own: what a command does, and help. The ways to ask for it, which are `-h`, `--help`
and the command `help`, are left out and count as names that are not known.

Options may stand before, between and behind the other arguments. After a lone
double hyphen every argument is taken as it is. Only the input of a simulation may
begin with a hyphen: where it is expected, an argument that is no option of the
command is taken as the input.
-/

namespace Acceptors.CommandLine

inductive Command where
  | simulate (automaton input : String) (strategy : Strategy)
  | determinize (source target : String)
  | minimize (source target : String) (comparison : Comparison)
  | showTable (automaton : String)
deriving DecidableEq, Repr

/-- A request together with the least level of events to be shown. -/
structure Invocation where
  command : Command
  verbosity : Level
deriving DecidableEq, Repr

inductive UsageError where
  | missingCommand
  | unknownCommand (name : String)
  | missingArgument (name : String)
  | surplusArgument (argument : String)
  | unknownOption (argument : String)
  | unexpectedValue (option : String)
  | invalidVerbosity (value : String)
  | repeatedOption (option : String)
deriving DecidableEq, Repr

def UsageError.message : UsageError → String
  | missingCommand => "a command is required: simulate, determinize, minimize or show"
  | unknownCommand name => s!"unknown command: {name}"
  | missingArgument name => s!"missing argument: {name}"
  | surplusArgument argument => s!"unexpected argument: {argument}"
  | unknownOption argument => s!"unknown option: {argument}"
  | unexpectedValue option => s!"option takes no value: {option}"
  | invalidVerbosity value => s!"verbosity is warn, info, debug or trace, not: {value}"
  | repeatedOption option => s!"option given twice: {option}"

/-! ## Shapes of arguments -/

inductive Form where
  | separator
  | long (name : String) (value : Option String)
  | short (letters : List Char)
  | plain
deriving DecidableEq, Repr

/-- The form of an argument. A single hyphen is plain. -/
def form (argument : String) : Form :=
  match argument.toList with
  | ['-', '-'] => .separator
  | '-' :: '-' :: rest =>
      .long (String.ofList (rest.takeWhile (· ≠ '=')))
        (match rest.dropWhile (· ≠ '=') with
        | _ :: value => some (String.ofList value)
        | [] => none)
  | '-' :: letter :: rest => .short (letter :: rest)
  | _ => .plain

/-- An argument of a command that is no option. -/
structure Slot where
  name : String
  mayBeginWithHyphen : Bool

structure Shape where
  slots : List Slot
  switches : List String

/-- The arguments of a command as far as they have been read. -/
structure Given where
  verbosity : Option Level
  switches : List String
  values : List String

namespace Given

def nothing : Given := ⟨none, [], []⟩

/-- The level that a verbosity value names. Without a value it is `info`. -/
def level? : Option String → Option Level
  | none => some .info
  | some "warn" => some .warn
  | some "info" => some .info
  | some "debug" => some .debug
  | some "trace" => some .trace
  | some _ => none

def setVerbosity (given : Given) (value : Option String) : Except UsageError Given :=
  match level? value with
  | none => .error (.invalidVerbosity (value.getD ""))
  | some level =>
      if given.verbosity.isSome then .error (.repeatedOption "verbosity")
      else .ok { given with verbosity := some level }

def addSwitch (given : Given) (name : String) : Except UsageError Given :=
  if given.switches.contains name then .error (.repeatedOption name)
  else .ok { given with switches := name :: given.switches }

def addValue (given : Given) (shape : Shape) (argument : String) : Except UsageError Given :=
  if given.values.length < shape.slots.length then
    .ok { given with values := given.values ++ [argument] }
  else .error (.surplusArgument argument)

/-- Whether the next slot takes an argument that begins with a hyphen. -/
def takesHyphen (given : Given) (shape : Shape) : Bool :=
  match shape.slots[given.values.length]? with
  | some slot => slot.mayBeginWithHyphen
  | none => false

/-- Takes one-letter options written together. The only one is the verbosity, whose value
follows an equals sign. -/
def addLetters (given : Given) : List Char → Except UsageError Given
  | [] => .ok given
  | 'v' :: '=' :: value => given.setVerbosity (some (String.ofList value))
  | 'v' :: rest => do (← given.setVerbosity none).addLetters rest
  | letter :: _ => .error (.unknownOption (String.singleton letter))

def addLong (given : Given) (shape : Shape) (argument name : String) (value : Option String) :
    Except UsageError Given :=
  if name = "verbosity" then given.setVerbosity value
  else if shape.switches.contains name then
    if value.isSome then .error (.unexpectedValue name) else given.addSwitch name
  else if given.takesHyphen shape then given.addValue shape argument
  else .error (.unknownOption argument)

def addAll (shape : Shape) (given : Given) : List String → Except UsageError Given
  | [] => .ok given
  | argument :: rest =>
      match form argument with
      | .separator =>
          rest.foldlM (fun current value => current.addValue shape value) given
      | .long name value => do
          (← given.addLong shape argument name value).addAll shape rest
      | .short letters => do
          let next ←
            if given.takesHyphen shape && letters.any (· ≠ 'v') then
              given.addValue shape argument
            else given.addLetters letters
          next.addAll shape rest
      | .plain => do
          (← given.addValue shape argument).addAll shape rest

end Given

/-! ## The commands -/

/-- A command by its name: its shape and what its complete arguments ask for. -/
def command? (name : String) : Option (Shape × (Given → Except UsageError Command)) :=
  match name with
  | "simulate" => some (⟨[⟨"automaton", false⟩, ⟨"input", true⟩], ["frontier"]⟩, fun given =>
      match given.values with
      | [automaton, input] =>
          .ok (.simulate automaton input
            (if given.switches.contains "frontier" then .frontier else .branching))
      | [_] => .error (.missingArgument "input")
      | _ => .error (.missingArgument "automaton"))
  | "determinize" => some (⟨[⟨"nfa", false⟩, ⟨"dfa", false⟩], []⟩, fun given =>
      match given.values with
      | [source, target] => .ok (.determinize source target)
      | [_] => .error (.missingArgument "dfa")
      | _ => .error (.missingArgument "nfa"))
  | "minimize" => some (⟨[⟨"nfa", false⟩, ⟨"minimized", false⟩], ["canonical"]⟩, fun given =>
      match given.values with
      | [source, target] =>
          .ok (.minimize source target
            (if given.switches.contains "canonical" then .classes else .successors))
      | [_] => .error (.missingArgument "minimized")
      | _ => .error (.missingArgument "nfa"))
  | "show" => some (⟨[⟨"automaton", false⟩], []⟩, fun given =>
      match given.values with
      | [automaton] => .ok (.showTable automaton)
      | _ => .error (.missingArgument "automaton"))
  | _ => none

/-- The request that the arguments behind a command's name make. A verbosity among them
wins over one in front of the name. -/
def parseCommand (before : Given) (name : String) (rest : List String) :
    Except UsageError Invocation := do
  match command? name with
  | none => .error (.unknownCommand name)
  | some (shape, complete) =>
      let given ← Given.nothing.addAll shape rest
      let command ← complete given
      return ⟨command, (given.verbosity.or before.verbosity).getD .warn⟩

/-- The request that arguments make, after what stands in front of the command. -/
def parseFrom (before : Given) : List String → Except UsageError Invocation
  | [] => .error .missingCommand
  | argument :: rest =>
      match form argument with
      | .separator => .error .missingCommand
      | .long name value => do
          parseFrom (← before.addLong ⟨[], []⟩ argument name value) rest
      | .short letters => do
          parseFrom (← before.addLetters letters) rest
      | .plain => parseCommand before argument rest

def parse (arguments : List String) : Except UsageError Invocation :=
  parseFrom .nothing arguments

end Acceptors.CommandLine
