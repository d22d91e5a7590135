import Acceptors.CommandLine.Execution

/-!
Contract: the program, run on real files.

Owns: the reading of arguments and files, and the sending of texts, files and
messages to where they belong.
Does not own: any decision. `CommandLine.parse` says what is asked for and
`Command.outcome` what is to be done.
-/

namespace Acceptors.CommandLine

/-- The bytes of a file that can be read. -/
def readContent? (path : String) : IO (Option ByteArray) := do
  try
    return some (← IO.FS.readBinFile path)
  catch _ =>
    return none

/-- Shows the events that ask for enough attention. -/
def showEvents (verbosity : Level) (events : List Event) : IO Unit :=
  for event in events do
    if verbosity.rank ≤ event.level.rank then
      IO.eprintln event.render

/-- Runs the program on its arguments and returns its exit code. -/
def execute (arguments : List String) : IO UInt32 := do
  match parse arguments with
  | .error error =>
      IO.eprintln error.message
      return misuse.toUInt32
  | .ok invocation =>
      let content ← readContent? invocation.command.source
      showEvents invocation.verbosity (invocation.command.events content)
      match invocation.command.outcome content with
      | .fail message =>
          IO.eprintln message
          return failure.toUInt32
      | .print text =>
          IO.print text
          return success.toUInt32
      | .write path text =>
          try
            IO.FS.writeFile path text
            return success.toUInt32
          catch error =>
            IO.eprintln s!"could not write automaton: {error}"
            return failure.toUInt32

end Acceptors.CommandLine

def main (arguments : List String) : IO UInt32 := Acceptors.CommandLine.execute arguments
