import Acceptors.Automaton
import Acceptors.Text.Lines
import Acceptors.Text.Numeral
import Acceptors.Text.Tokens

/-!
Contract: the text form of an automaton.

Owns: the lines that describe an automaton, their writing, their reading, and
the reasons for which reading fails.
Does not own: files, or the validity of an automaton as a whole.

Four header lines hold the number of states, the number of symbols, the initial
states and the accepting states. Every later line holds a source, a symbol and
one or more targets; blank lines are skipped and lines with the same source and
symbol add up. Reading stops at the first line that cannot be used.
-/

namespace Acceptors

inductive HeaderLine where
  | stateCount
  | symbolCount
  | initialStates
  | acceptingStates
deriving DecidableEq, Repr

namespace HeaderLine

/-- The line at which a header line stands, counted from one. -/
def number : HeaderLine → Nat
  | stateCount => 1
  | symbolCount => 2
  | initialStates => 3
  | acceptingStates => 4

def content : HeaderLine → String
  | stateCount => "the number of states"
  | symbolCount => "the number of symbols"
  | initialStates => "the initial states"
  | acceptingStates => "the accepting states"

end HeaderLine

/-- Why lines describe no automaton. Lines are counted from one. -/
inductive ReadError where
  | notUnicode
  | missingLine (line : HeaderLine)
  | invalidNumber (line : Nat) (token : String)
  | expectedSingleNumber (line : Nat) (content : String)
  | missingTargets (line : Nat)
  | outOfRange (line : Nat) (violation : Violation)
  | invalid (violation : Violation)
deriving DecidableEq, Repr

namespace ReadError

def message : ReadError → String
  | notUnicode => "could not read automaton: stream did not contain valid UTF-8"
  | missingLine line => s!"line {line.number}: expected {line.content}, but input ended"
  | invalidNumber line token => s!"line {line}: `{token}` is not a non-negative integer"
  | expectedSingleNumber line content =>
      s!"line {line}: expected a single number, found `{content}`"
  | missingTargets line =>
      s!"line {line}: a transition needs a source, a symbol and at least one target"
  | outOfRange line violation => s!"line {line}: {violation.message}"
  | invalid violation => s!"invalid automaton: {violation.message}"

end ReadError

namespace Encoding

structure Header where
  size : Nat
  alphabetSize : Nat
  initial : List Nat
  accepting : List Nat
deriving DecidableEq, Repr

/-! ## Reading one line -/

/-- The number that a token on a line denotes. -/
def numberOf (line : Nat) (token : String) : Except ReadError Nat :=
  match Text.Numeral.parse? token with
  | some number => .ok number
  | none => .error (.invalidNumber line token)

/-- The numbers on a line; the first token that is none is refused. -/
def numbers (line : Nat) (content : String) : Except ReadError (List Nat) :=
  (Text.tokens content).mapM (numberOf line)

/-- The number on a line that must hold exactly one. -/
def singleNumber (line : Nat) (content : String) : Except ReadError Nat := do
  match ← numbers line content with
  | [number] => .ok number
  | _ => .error (.expectedSingleNumber line content)

/-- Places a violation at a line. -/
def refuse (line : Nat) : Option Violation → Except ReadError Unit
  | some violation => .error (.outOfRange line violation)
  | none => .ok ()

/-- Lets states in range pass and refuses the first one that is not. -/
def checkStates (line size : Nat) (states : List Nat) : Except ReadError Unit :=
  refuse line (states.findSome? (stateViolation? size))

/-- The edges on a transition line, none if the line is blank. -/
def edgesOnLine (header : Header) (line : Nat) (content : String) :
    Except ReadError (List Edge) := do
  if (Text.trim content).isEmpty then return []
  match ← numbers line content with
  | source :: symbol :: target :: more =>
      checkStates line header.size [source]
      refuse line (symbolViolation? header.alphabetSize symbol)
      checkStates line header.size (target :: more)
      return (target :: more).map fun target => ⟨source, symbol, target⟩
  | _ => .error (.missingTargets line)

/-! ## Reading all lines -/

/-- The content of a header line and the lines behind it. -/
def takeLine (line : HeaderLine) : List String → Except ReadError (String × List String)
  | [] => .error (.missingLine line)
  | content :: rest => .ok (Text.trim content, rest)

def headerNumber (line : HeaderLine) (lines : List String) :
    Except ReadError (Nat × List String) := do
  let (content, rest) ← takeLine line lines
  let number ← singleNumber line.number content
  return (number, rest)

/-- The states on a line, all of them in range. -/
def statesOnLine (size line : Nat) (content : String) : Except ReadError (List Nat) := do
  let states ← numbers line content
  checkStates line size states
  return states

/-- The states on a header line and the lines behind it. -/
def headerStates (line : HeaderLine) (size : Nat) (lines : List String) :
    Except ReadError (List Nat × List String) := do
  let (content, rest) ← takeLine line lines
  let states ← statesOnLine size line.number content
  return (states, rest)

def readHeader (lines : List String) : Except ReadError (Header × List String) := do
  let (size, lines) ← headerNumber .stateCount lines
  let (alphabetSize, lines) ← headerNumber .symbolCount lines
  let (initial, lines) ← headerStates .initialStates size lines
  let (accepting, lines) ← headerStates .acceptingStates size lines
  return (⟨size, alphabetSize, initial, accepting⟩, lines)

def firstTransitionLine : Nat := 5

def readEdges (header : Header) (lines : List (String × Nat)) : Except ReadError (List Edge) :=
  (lines.mapM fun line => edgesOnLine header line.2 line.1).map List.flatten

def readBody (header : Header) (lines : List String) : Except ReadError Automaton := do
  let edges ← readEdges header (lines.zipIdx firstTransitionLine)
  let draft := Draft.ofEdges header.size header.alphabetSize
    (StateSet.ofList header.initial) (StateSet.ofList header.accepting) edges
  match draft.build with
  | .ok automaton => return automaton
  | .error violation => .error (.invalid violation)

def readLines (lines : List String) : Except ReadError Automaton := do
  let (header, rest) ← readHeader lines
  readBody header rest

def read (text : String) : Except ReadError Automaton := readLines (Text.lines text)

/-- The lines of a byte sequence. All of them are decoded before the first one is used. -/
def linesOfBytes (bytes : ByteArray) : Except ReadError (List String) :=
  match Text.decodedLines? bytes with
  | some lines => .ok lines
  | none => .error .notUnicode

def readBytes (bytes : ByteArray) : Except ReadError Automaton := do
  readLines (← linesOfBytes bytes)

/-! ## Writing -/

def numberLine (numbers : List Nat) : String :=
  " ".intercalate (numbers.map Text.Numeral.render)

/-- The lines that describe an automaton. States and departures ascend. -/
def lines (automaton : Automaton) : List String :=
  numberLine [automaton.size] :: numberLine [automaton.alphabetSize] ::
    numberLine automaton.initial.toList :: numberLine automaton.accepting.toList ::
      automaton.entries.map fun entry =>
        numberLine (entry.1.source :: entry.1.symbol :: entry.2.toList)

def write (automaton : Automaton) : String := Text.unlines (lines automaton)

end Encoding

end Acceptors
