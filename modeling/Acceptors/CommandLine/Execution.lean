import Acceptors.CommandLine.Arguments
import Acceptors.Word

/-!
Contract: what a command does with the files it is given.

Owns: the outcome of a command as a function of the bytes it reads, stores of
files, and the effect of one run of the program on a store.
Does not own: the reading and writing of real files, and what is reported of the time
that a command takes.

Every command reads one file and then prints one text, writes one file, or fails.
A command that fails prints nothing and writes nothing. Minimizing takes the table of
successors of the determinized automaton to fit into memory.
-/

namespace Acceptors.CommandLine

/-- What a command ends with. -/
inductive Outcome where
  | print (text : String)
  | write (path text : String)
  | fail (message : String)
deriving DecidableEq, Repr

namespace Command

def source : Command → String
  | simulate automaton _ _ => automaton
  | determinize source _ => source
  | minimize source _ _ => source
  | showTable automaton => automaton

/-- What a command does with the automaton it has read. -/
def apply (automaton : Automaton) : Command → Outcome
  | simulate _ input strategy =>
      match Word.decode input with
      | .error error => .fail error.message
      | .ok word => .print s!"{automaton.acceptsWith strategy word}\n"
  | determinize _ target => .write target (Encoding.write automaton.determinize)
  | minimize _ target comparison =>
      match automaton.determinize.minimizeBy comparison with
      | .error ambiguity => .fail ambiguity.message
      | .ok minimized => .write target (Encoding.write minimized)
  | showTable _ => .print (automaton.describe ++ "\n")

/-- What a command does with the bytes of its file, if the file can be read. -/
def outcome (command : Command) (content : Option ByteArray) : Outcome :=
  match content with
  | none => .fail s!"could not read automaton: {command.source}"
  | some bytes =>
      match Encoding.readBytes bytes with
      | .error error => .fail error.message
      | .ok automaton => command.apply automaton

/-- The events of a command on an automaton it has read. -/
def applyEvents (automaton : Automaton) : Command → List Event
  | simulate _ input strategy =>
      match Word.decode input with
      | .error _ => []
      | .ok word => automaton.simulationEvents strategy word
  | determinize _ _ => automaton.determinizationEvents
  | minimize _ _ comparison =>
      automaton.determinizationEvents ++
        automaton.determinize.minimizationEvents comparison
  | showTable _ => []

/-- The events of a command on the bytes of its file. -/
def events (command : Command) (content : Option ByteArray) : List Event :=
  match content.map Encoding.linesOfBytes with
  | some (.ok lines) =>
      Encoding.readEvents lines ++
        match Encoding.readLines lines with
        | .error _ => []
        | .ok automaton => command.applyEvents automaton
  | _ => []

end Command

/-! ## Runs on a store of files -/

/-- The contents of files by their paths, and the paths at which a file can be written. -/
structure Store where
  content? : String → Option ByteArray
  writable : String → Bool

namespace Store

def write (store : Store) (path text : String) : Store :=
  { store with
    content? := fun other => if other = path then some text.toUTF8 else store.content? other }

/-- The text of a file, if there is one and it is text. -/
def text? (store : Store) (path : String) : Option String :=
  (store.content? path).bind String.fromUTF8?

end Store

/-- Exit codes: success, failure of a command, refusal of the arguments. -/
def success : Nat := 0

def failure : Nat := 1

def misuse : Nat := 2

structure Result where
  status : Nat
  output : String
  store : Store

/-- One run of the program on a store. -/
def run (arguments : List String) (store : Store) : Result :=
  match parse arguments with
  | .error _ => ⟨misuse, "", store⟩
  | .ok invocation =>
      match invocation.command.outcome (store.content? invocation.command.source) with
      | .fail _ => ⟨failure, "", store⟩
      | .print text => ⟨success, text, store⟩
      | .write path text =>
          if store.writable path then ⟨success, "", store.write path text⟩
          else ⟨failure, "", store⟩

def runAll (runs : List (List String)) (store : Store) : List Result × Store :=
  match runs with
  | [] => ([], store)
  | arguments :: rest =>
      let result := run arguments store
      let (results, last) := runAll rest result.store
      (result :: results, last)

end Acceptors.CommandLine
