import Acceptors.Attempt
import Acceptors.CommandLine.Execution

/-!
Contract: what argument lists ask for and what one run does to a store.

Owns: the reading of values in front of and behind a separator, argument lists that ask for a
command, the automata that files hold, and the runs that fail, print or write.
Does not own: which texts are printed and written.

Whatever a command does depends on the arguments through the command alone, so that one lemma
covers all orders of options and all levels of verbosity. Every command has an argument list,
with a separator for paths and inputs that begin with a hyphen.
-/

namespace Acceptors.CommandLine

/-! ## Argument lists -/

/-- Arguments are well-formed and ask for a command, at any verbosity. -/
def AsksFor (arguments : List String) (command : Command) : Prop :=
  ∃ verbosity, parse arguments = .ok ⟨command, verbosity⟩

namespace Given

variable {given : Given} {shape : Shape} {values rest : List String}

/-- Values that begin with no hyphen are taken one by one, while there are slots for them. -/
theorem addAll_plain (plain : ∀ value ∈ values, form value = .plain)
    (fits : given.values.length + values.length ≤ shape.slots.length) :
    given.addAll shape (values ++ rest) =
      { given with values := given.values ++ values }.addAll shape rest := by
  induction values generalizing given with
  | nil => simp
  | cons head tail inductionHypothesis =>
      rw [List.length_cons] at fits
      have room : given.values.length < shape.slots.length := by omega
      have later := @inductionHypothesis { given with values := given.values ++ [head] }
        (fun value listed => plain value (List.mem_cons_of_mem _ listed))
        (by simp only [List.length_append, List.length_singleton]; omega)
      rw [List.cons_append, addAll, plain head List.mem_cons_self, addValue, if_pos room]
      simpa using later

/-- Behind a separator, all values are taken, while there are slots for them. -/
theorem addAll_separator (fits : given.values.length + values.length ≤ shape.slots.length) :
    given.addAll shape ("--" :: values) = .ok { given with values := given.values ++ values } := by
  have separator : form "--" = .separator := by decide
  rw [addAll, separator]
  induction values generalizing given with
  | nil => simp [pure, Except.pure]
  | cons head tail inductionHypothesis =>
      rw [List.length_cons] at fits
      have room : given.values.length < shape.slots.length := by omega
      have later := @inductionHypothesis { given with values := given.values ++ [head] }
        (by simp only [List.length_append, List.length_singleton]; omega)
      rw [List.foldlM_cons, addValue, if_pos room]
      simpa using later

end Given

namespace Command

def name : Command → String
  | simulate _ _ _ => "simulate"
  | determinize _ _ => "determinize"
  | minimize _ _ _ => "minimize"
  | showTable _ => "show"

/-- The switches that a command needs. -/
def switches : Command → List String
  | simulate _ _ .frontier => ["frontier"]
  | minimize _ _ .classes => ["canonical"]
  | _ => []

def options (command : Command) : List String := command.switches.map ("--" ++ ·)

/-- The arguments of a command that are no options. -/
def values : Command → List String
  | simulate automaton input _ => [automaton, input]
  | determinize source target => [source, target]
  | minimize source target _ => [source, target]
  | showTable automaton => [automaton]

theorem form_name (command : Command) : form command.name = .plain := by
  cases command <;> simp only [name] <;> decide

/-- A command is read from its name, its switches and its values. -/
theorem exists_shape (command : Command) :
    ∃ shape complete, command? command.name = some (shape, complete) ∧
      complete ⟨none, command.switches, command.values⟩ = .ok command ∧
      command.values.length = shape.slots.length ∧
      ∀ values rest, Given.addAll shape ⟨none, [], values⟩ (command.options ++ rest) =
        Given.addAll shape ⟨none, command.switches, values⟩ rest := by
  have frontier : form "--frontier" = .long "frontier" none := by decide
  have canonical : form "--canonical" = .long "canonical" none := by decide
  cases command with
  | simulate automaton input strategy =>
      refine ⟨_, _, rfl, ?_, rfl, ?_⟩ <;> cases strategy <;>
        simp [switches, values, options, Given.addAll, Given.addLong, Given.addSwitch, frontier]
  | determinize source target => exact ⟨_, _, rfl, rfl, rfl, fun _ _ => rfl⟩
  | minimize source target comparison =>
      refine ⟨_, _, rfl, ?_, rfl, ?_⟩ <;> cases comparison <;>
        simp [switches, values, options, Given.addAll, Given.addLong, Given.addSwitch, canonical]
  | showTable automaton => exact ⟨_, _, rfl, rfl, rfl, fun _ _ => rfl⟩

end Command

/-- What is read as the switches and the values of a command asks for it. -/
theorem asksFor_of_addAll {command : Command} {rest : List String} {shape : Shape}
    {complete : Given → Except UsageError Command}
    (known : command? command.name = some (shape, complete))
    (completed : complete ⟨none, command.switches, command.values⟩ = .ok command)
    (read : Given.nothing.addAll shape rest = .ok ⟨none, command.switches, command.values⟩) :
    AsksFor (command.name :: rest) command := by
  refine ⟨.warn, ?_⟩
  rw [parse, parseFrom, command.form_name]
  simp only [parseCommand, known, read, ok_bind, completed]
  rfl

/-- Behind a separator, paths and inputs may begin with hyphens. -/
theorem asksFor_separated (command : Command) :
    AsksFor (command.name :: (command.options ++ "--" :: command.values)) command := by
  obtain ⟨shape, complete, known, completed, slots, options⟩ := command.exists_shape
  apply asksFor_of_addAll known completed
  rw [Given.nothing, options, Given.addAll_separator (by simp [slots])]
  rfl

/-- Paths and inputs that begin with no hyphen need no separator. -/
theorem asksFor_plain (command : Command) (plain : ∀ value ∈ command.values, form value = .plain) :
    AsksFor (command.name :: (command.values ++ command.options)) command := by
  obtain ⟨shape, complete, known, completed, slots, options⟩ := command.exists_shape
  apply asksFor_of_addAll known completed
  rw [Given.addAll_plain plain (by simp [Given.nothing, slots]), ← List.append_nil command.options]
  exact options command.values []

example {source target : String} (sourcePlain : form source = .plain)
    (targetPlain : form target = .plain) :
    AsksFor ["minimize", source, target, "--canonical"] (.minimize source target .classes) :=
  asksFor_plain (.minimize source target .classes) (by simp [Command.values, *])

/-! ## Runs -/

section

variable {arguments : List String} {command : Command} {store : Store} {automaton : Automaton}
  {path : String}

/-- The file at a path is read as an automaton. -/
def Store.Holds (store : Store) (path : String) (automaton : Automaton) : Prop :=
  ∃ bytes, store.content? path = some bytes ∧ Encoding.readBytes bytes = .ok automaton

/-- Some arguments ask for a command, and all that do make it print a text and do nothing else. -/
def Store.Prints (store : Store) (command : Command) (text : String) : Prop :=
  (∃ arguments, AsksFor arguments command) ∧
    ∀ arguments, AsksFor arguments command → run arguments store = ⟨success, text, store⟩

theorem outcome_of_holds (holds : store.Holds command.source automaton) :
    command.outcome (store.content? command.source) = command.apply automaton := by
  obtain ⟨bytes, found, read⟩ := holds
  rw [found, Command.outcome, read]

/-- A file that is missing or holds no automaton makes every command fail. -/
theorem exists_outcome_eq_fail (nothing : ∀ automaton, ¬store.Holds command.source automaton) :
    ∃ message, command.outcome (store.content? command.source) = .fail message := by
  cases found : store.content? command.source with
  | none => exact ⟨_, rfl⟩
  | some bytes =>
      cases read : Encoding.readBytes bytes with
      | error error => exact ⟨error.message, by rw [Command.outcome, read]⟩
      | ok automaton => exact absurd ⟨bytes, found, read⟩ (nothing automaton)

theorem run_of_fail (asks : AsksFor arguments command) {message : String}
    (fails : command.outcome (store.content? command.source) = .fail message) :
    run arguments store = ⟨failure, "", store⟩ := by
  obtain ⟨verbosity, parsed⟩ := asks
  simp only [run, parsed, fails]

theorem run_of_print (asks : AsksFor arguments command) {text : String}
    (prints : command.outcome (store.content? command.source) = .print text) :
    run arguments store = ⟨success, text, store⟩ := by
  obtain ⟨verbosity, parsed⟩ := asks
  simp only [run, parsed, prints]

theorem run_of_write (asks : AsksFor arguments command) {text : String}
    (writes : command.outcome (store.content? command.source) = .write path text)
    (writable : store.writable path = true) :
    run arguments store = ⟨success, "", store.write path text⟩ := by
  obtain ⟨verbosity, parsed⟩ := asks
  simp only [run, parsed, writes, writable, if_true]

/-- A simulation prints the answer of the automaton in its file. -/
theorem Store.Holds.prints (holds : store.Holds path automaton) {input : String} {word : Word}
    (decoded : Word.decode input = .ok word) (strategy : Strategy) :
    store.Prints (.simulate path input strategy) s!"{automaton.acceptsWith strategy word}\n" := by
  refine ⟨⟨_, asksFor_separated _⟩, fun arguments asks => run_of_print asks ?_⟩
  rw [outcome_of_holds holds, Command.apply, decoded]

end

end Acceptors.CommandLine
