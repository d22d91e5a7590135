import Acceptors.Proofs.Recognition

/-!
Contract: the reader of lines as a machine that takes one line at a time.

Owns: what is known after some lines, the step from one line to the next, what the end of
the lines means at every stage, and the equality of the machine with the reader.
Does not own: which lines make a step fail.

The reader takes four lines apart by name and all later ones at once. The machine has one
step for every line, so that what lines in front decide is decided whatever comes behind
(`readTo_of_le`).
-/

namespace Acceptors

namespace Encoding

/-! ## Stages -/

/-- What is known of an automaton when some of its lines have been read. -/
inductive Stage where
  | start
  | sized (size : Nat)
  | counted (size alphabetSize : Nat)
  | entered (size alphabetSize : Nat) (initial : List Nat)
  | headed (header : Header) (edges : List Edge)

namespace Stage

/-- Reads one more line, given with its number. -/
def advance (stage : Stage) (line : String × Nat) : Except ReadError Stage :=
  match stage with
  | start => (singleNumber line.2 (Text.trim line.1)).map sized
  | sized size => (singleNumber line.2 (Text.trim line.1)).map (counted size)
  | counted size alphabetSize =>
      (statesOnLine size line.2 (Text.trim line.1)).map (entered size alphabetSize)
  | entered size alphabetSize initial =>
      (statesOnLine size line.2 (Text.trim line.1)).map fun accepting =>
        headed ⟨size, alphabetSize, initial, accepting⟩ []
  | headed header edges =>
      (edgesOnLine header line.2 line.1).map fun more => headed header (edges ++ more)

/-- The automaton that is known when there are no more lines. -/
def finish : Stage → Except ReadError Automaton
  | start => .error (.missingLine .stateCount)
  | sized _ => .error (.missingLine .symbolCount)
  | counted _ _ => .error (.missingLine .initialStates)
  | entered _ _ _ => .error (.missingLine .acceptingStates)
  | headed header edges =>
      match (headerDraft header edges).build with
      | .ok automaton => .ok automaton
      | .error violation => .error (.invalid violation)

end Stage

/-- The stage after the first lines, up to the given number of them. -/
def readTo (lines : List String) (count : Nat) : Except ReadError Stage :=
  ((lines.take count).zipIdx 1).foldlM Stage.advance .start

/-! ## Steps -/

section

variable {lines others : List String} {count later : Nat} {error : ReadError}

theorem readTo_zero : readTo lines 0 = .ok .start := rfl

theorem readTo_succ (inside : count < lines.length) :
    readTo lines (count + 1) =
      readTo lines count >>= fun stage => stage.advance (lines[count], count + 1) := by
  have length : (lines.take count).length = count := by
    rw [List.length_take]
    omega
  rw [readTo, List.take_succ_eq_append_getElem inside, List.zipIdx_append, length,
    List.foldlM_append, Nat.add_comm 1 count, List.zipIdx_singleton]
  simp only [List.foldlM_cons, List.foldlM_nil, bind_pure]
  rfl

/-- A line that cannot be read ends the reading, whatever stands behind it. -/
theorem readTo_of_le (failed : readTo lines count = .error error) (le : count ≤ later) :
    readTo lines later = .error error := by
  have divided : lines.take later = lines.take count ++ (lines.take later).drop count := by
    have whole := List.take_append_drop count (lines.take later)
    rw [List.take_take, Nat.min_eq_left le] at whole
    exact whole.symm
  rw [readTo, divided, List.zipIdx_append, List.foldlM_append, ← readTo, failed]
  rfl

end

/-! ## The reader -/

theorem foldlM_advance_headed (header : Header) (items : List (String × Nat)) (edges : List Edge) :
    items.foldlM Stage.advance (.headed header edges) =
      (readEdges header items).map fun more => .headed header (edges ++ more) := by
  induction items generalizing edges with
  | nil => simp [readEdges, Except.map, pure, Except.pure]
  | cons head tail inductionHypothesis =>
      rw [List.foldlM_cons, readEdges, List.mapM_cons]
      cases read : edgesOnLine header head.2 head.1 with
      | error error => simp [Stage.advance, read, Except.map, bind, Except.bind]
      | ok more =>
          have stepped : Stage.advance (.headed header edges) head =
              .ok (.headed header (edges ++ more)) := by
            rw [Stage.advance, read]
            rfl
          rw [stepped, ok_bind, ok_bind, inductionHypothesis, readEdges]
          cases tail.mapM fun line => edgesOnLine header line.2 line.1 <;>
            simp [Except.map, bind, Except.bind, pure, Except.pure]

theorem headerNumber_cons (line : HeaderLine) (content : String) (rest : List String) :
    headerNumber line (content :: rest) =
      (singleNumber line.number (Text.trim content)).map fun value => (value, rest) := by
  simp only [headerNumber, takeLine, ok_bind]
  cases singleNumber line.number (Text.trim content) <;> rfl

theorem headerStates_cons (line : HeaderLine) (size : Nat) (content : String)
    (rest : List String) :
    headerStates line size (content :: rest) =
      (statesOnLine size line.number (Text.trim content)).map fun states => (states, rest) := by
  simp only [headerStates, takeLine, ok_bind]
  cases statesOnLine size line.number (Text.trim content) <;> rfl

namespace Stage

/-- Reads all lines that are left, of which the first one has the given number. -/
def resume (stage : Stage) (line : Nat) (lines : List String) : Except ReadError Automaton :=
  (lines.zipIdx line).foldlM advance stage >>= finish

theorem resume_cons (stage : Stage) (line : Nat) (content : String) (rest : List String) :
    stage.resume line (content :: rest) =
      stage.advance (content, line) >>= fun next => next.resume (line + 1) rest := by
  rw [resume, List.zipIdx_cons, List.foldlM_cons, bind_assoc]
  rfl

theorem resume_headed (header : Header) (lines : List String) :
    (headed header []).resume firstTransitionLine lines = readBody header lines := by
  rw [resume, foldlM_advance_headed, readBody]
  cases readEdges header (lines.zipIdx firstTransitionLine) with
  | error error => rfl
  | ok edges => rfl

theorem resume_entered (size alphabetSize : Nat) (initial : List Nat) (lines : List String) :
    (entered size alphabetSize initial).resume 4 lines =
      headerStates .acceptingStates size lines >>= fun read =>
        readBody ⟨size, alphabetSize, initial, read.1⟩ read.2 := by
  cases lines with
  | nil => rfl
  | cons content rest =>
      rw [resume_cons, headerStates_cons, advance]
      simp only [HeaderLine.number]
      cases statesOnLine size 4 (Text.trim content) with
      | error error => rfl
      | ok accepting => exact resume_headed _ rest

theorem resume_counted (size alphabetSize : Nat) (lines : List String) :
    (counted size alphabetSize).resume 3 lines =
      headerStates .initialStates size lines >>= fun read =>
        (entered size alphabetSize read.1).resume 4 read.2 := by
  cases lines with
  | nil => rfl
  | cons content rest =>
      rw [resume_cons, headerStates_cons, advance]
      simp only [HeaderLine.number]
      cases statesOnLine size 3 (Text.trim content) <;> rfl

theorem resume_sized (size : Nat) (lines : List String) :
    (sized size).resume 2 lines =
      headerNumber .symbolCount lines >>= fun read => (counted size read.1).resume 3 read.2 := by
  cases lines with
  | nil => rfl
  | cons content rest =>
      rw [resume_cons, headerNumber_cons, advance]
      simp only [HeaderLine.number]
      cases singleNumber 2 (Text.trim content) <;> rfl

theorem resume_start (lines : List String) :
    start.resume 1 lines =
      headerNumber .stateCount lines >>= fun read => (sized read.1).resume 2 read.2 := by
  cases lines with
  | nil => rfl
  | cons content rest =>
      rw [resume_cons, headerNumber_cons, advance]
      simp only [HeaderLine.number]
      cases singleNumber 1 (Text.trim content) <;> rfl

end Stage

/-- Reading all lines at once is reading them one by one. -/
theorem readLines_eq_readTo (lines : List String) :
    readLines lines = readTo lines lines.length >>= Stage.finish := by
  have whole : readTo lines lines.length >>= Stage.finish = Stage.start.resume 1 lines := by
    rw [readTo, List.take_length, Stage.resume]
  rw [whole, Stage.resume_start]
  simp only [Stage.resume_sized, Stage.resume_counted, Stage.resume_entered, readLines, readHeader,
    bind_assoc, pure_bind]

end Encoding

end Acceptors
