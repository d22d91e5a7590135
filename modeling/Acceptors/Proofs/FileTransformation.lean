import Acceptors.Proofs.Commands
import Acceptors.Proofs.WrittenLength

/-!
Contract: commands that read an automaton from one file and write another one into a file.

Owns: the commands that write, the automaton that each of them writes, and what a run of them
leaves in a store.
Does not own: how automata are determinized, merged, written and read.

A run reads its source before it writes its target, so the two may be one file. All that can
fail comes before the write: merging does not, since determinization hands it a deterministic
automaton.
-/

namespace Acceptors.CommandLine

/-! ## Transformations -/

/-- The commands that write an automaton: the subset construction, alone or before merging. -/
inductive Transformation where
  | determinization
  | minimization (comparison : Comparison)

namespace Transformation

def command (source target : String) : Transformation → Command
  | determinization => .determinize source target
  | minimization comparison => .minimize source target comparison

/-- The automaton that is written for an automaton that was read. -/
def apply (automaton : Automaton) : Transformation → Except Ambiguity Automaton
  | determinization => .ok automaton.determinize
  | minimization comparison => automaton.determinize.minimizeBy comparison

variable (transformation : Transformation) {source target : String} {automaton result : Automaton}

theorem source_command : (transformation.command source target).source = source := by
  cases transformation <;> rfl

theorem apply_command (applied : transformation.apply automaton = .ok result) :
    (transformation.command source target).apply automaton =
      .write target (Encoding.write result) := by
  cases transformation with
  | determinization =>
      cases applied
      rfl
  | minimization comparison =>
      have merged : automaton.determinize.minimizeBy comparison = .ok result := applied
      rw [command, Command.apply, merged]

/-- Every transformation succeeds, and keeps the words that are accepted. All states of the
result are reached. -/
theorem exists_apply_eq_ok (automaton : Automaton) :
    ∃ result, transformation.apply automaton = .ok result ∧
      (∀ word, result.Accepts word ↔ automaton.Accepts word) ∧
      result.alphabetSize = automaton.alphabetSize ∧ result.Unambiguous ∧
      ∃ start, result.LeadsEverywhere start := by
  have unambiguous := automaton.unambiguous_determinize
  cases transformation with
  | determinization =>
      exact ⟨automaton.determinize, rfl, fun _ => Automaton.accepts_determinize_iff,
        Automaton.alphabetSize_determinize, unambiguous, 0, Automaton.leadsEverywhere_determinize⟩
  | minimization comparison =>
      have congruence := automaton.determinize.congruence_refineBy comparison
      refine ⟨_, Automaton.minimizeBy_eq_ok unambiguous comparison, fun word => ?_, ?_,
        congruence.unambiguous_quotient unambiguous, _,
        congruence.leadsEverywhere_quotient unambiguous automaton.determinize.valid.size_pos
          Automaton.leadsEverywhere_determinize⟩
      · exact (congruence.accepts_quotient_iff unambiguous).trans Automaton.accepts_determinize_iff
      · exact (Automaton.alphabetSize_quotient _).trans Automaton.alphabetSize_determinize

end Transformation

/-! ## Runs of transformations -/

variable {arguments : List String} {store : Store} {automaton result : Automaton}
  {source target : String}

/-- A run succeeds, prints nothing, and puts the text of an automaton into one file. -/
structure Replaces (store : Store) (after : Result) (target : String) (automaton : Automaton) :
    Prop where
  status_eq : after.status = success
  output_eq : after.output = ""
  content_target : after.store.content? target = some (Encoding.write automaton).toUTF8
  content_other : ∀ path, path ≠ target → after.store.content? path = store.content? path

theorem replaces_write (store : Store) (target : String) (automaton : Automaton) :
    Replaces store ⟨success, "", store.write target (Encoding.write automaton)⟩ target
      automaton where
  status_eq := rfl
  output_eq := rfl
  content_target := if_pos rfl
  content_other := fun _ elsewhere => if_neg elsewhere

theorem Store.Holds.alphabetSize_lt (holds : store.Holds source automaton) :
    automaton.alphabetSize < UInt64.size := by
  obtain ⟨bytes, _, read⟩ := holds
  obtain ⟨lines, _, found⟩ := bind_eq_ok_iff.mp read
  exact Encoding.alphabetSize_lt_of_readLines found

/-- The same simulations print the same answers for a file as it was and for another file as it
is now, and for the first one as it is now if it is not the other. -/
def AnswersAlike (before after : Store) (source target : String) : Prop :=
  ∀ input word, Word.decode input = .ok word → ∃ answer : Bool, ∀ strategy,
    before.Prints (.simulate source input strategy) s!"{answer}\n" ∧
    after.Prints (.simulate target input strategy) s!"{answer}\n" ∧
    (source ≠ target → after.Prints (.simulate source input strategy) s!"{answer}\n")

theorem answersAlike_of_accepts {before after : Store} (holdsSource : before.Holds source automaton)
    (holdsTarget : after.Holds target result)
    (kept : source ≠ target → after.Holds source automaton)
    (accepts_iff : ∀ word, result.Accepts word ↔ automaton.Accepts word) :
    AnswersAlike before after source target := by
  intro input word decoded
  refine ⟨automaton.accepts word, fun strategy => ?_⟩
  have sourceAnswer : automaton.acceptsWith strategy word = automaton.accepts word :=
    Automaton.acceptsWith_congr Iff.rfl
  have targetAnswer : result.acceptsWith strategy word = automaton.accepts word :=
    Automaton.acceptsWith_congr (accepts_iff word)
  refine ⟨?_, ?_, fun apart => ?_⟩
  · exact sourceAnswer ▸ holdsSource.prints decoded strategy
  · exact targetAnswer ▸ holdsTarget.prints decoded strategy
  · exact sourceAnswer ▸ (kept apart).prints decoded strategy

/-- Whatever the files contain, a command that writes an automaton either puts the text of the
determinized, or determinized and merged, automaton of its source into its target, also where
both are one file, or it fails since its source holds no automaton, and changes nothing. A text
that fits into a file is read back, as an automaton that accepts the same words. -/
theorem transformations_replace_target (transformation : Transformation)
    {arguments : List String} {source target : String} {store : Store}
    (asks : AsksFor arguments (transformation.command source target))
    (writable : store.writable target = true) :
    (∃ automaton result, store.Holds source automaton ∧
      transformation.apply automaton = .ok result ∧
      Replaces store (run arguments store) target result ∧
      ((Encoding.write result).utf8ByteSize < UInt64.size →
        (run arguments store).store.Holds target result ∧
        (∀ strategy word,
          result.acceptsWith strategy word = automaton.acceptsWith strategy word) ∧
        AnswersAlike store (run arguments store).store source target)) ∨
    (∀ automaton, ¬store.Holds source automaton) ∧
      run arguments store = ⟨failure, "", store⟩ := by
  by_cases found : ∃ automaton, store.Holds source automaton
  · obtain ⟨automaton, holds⟩ := found
    obtain ⟨result, applied, accepts_iff, alphabetSize_eq, unambiguous, start, everywhere⟩ :=
      transformation.exists_apply_eq_ok automaton
    have holdsCommand : store.Holds (transformation.command source target).source automaton :=
      transformation.source_command.symm ▸ holds
    have ran : run arguments store =
        ⟨success, "", store.write target (Encoding.write result)⟩ := by
      apply run_of_write asks _ writable
      rw [outcome_of_holds holdsCommand, transformation.apply_command applied]
    -- The source was read before the write, so nothing here asks whether it is the target.
    have replaces := replaces_write store target result
    rw [ran]
    refine Or.inl ⟨automaton, result, holds, applied, replaces, fun fits => ?_⟩
    have size_lt : result.size < UInt64.size :=
      Nat.lt_trans (everywhere.size_lt_utf8ByteSize_write unambiguous) fits
    have alphabetSize_lt : result.alphabetSize < UInt64.size :=
      alphabetSize_eq ▸ holds.alphabetSize_lt
    have holdsTarget : (store.write target (Encoding.write result)).Holds target result :=
      ⟨_, replaces.content_target, Encoding.readBytes_write size_lt alphabetSize_lt⟩
    refine ⟨holdsTarget, fun strategy word => Automaton.acceptsWith_congr (accepts_iff word), ?_⟩
    apply answersAlike_of_accepts holds holdsTarget _ accepts_iff
    intro apart
    obtain ⟨bytes, content, read⟩ := holds
    exact ⟨bytes, (replaces.content_other source apart).trans content, read⟩
  · have nothing : ∀ automaton, ¬store.Holds (transformation.command source target).source
        automaton := by
      rw [transformation.source_command]
      exact not_exists.mp found
    obtain ⟨message, fails⟩ := exists_outcome_eq_fail nothing
    exact Or.inr ⟨not_exists.mp found, run_of_fail asks fails⟩

/-- A file that holds an automaton with two initial states and a repeated target, and a file
that holds none. -/
def guessesStore : Store where
  content? path :=
    if path = "ones" then
      some ("5\n2\n4 1\n1 3\n\n0 0 1\r\n0 1 1\n1 0 3\n1 1 2\n2 0 2\n2 1 3\n" ++
        "3 0 3 1 3\n3 1 2\n4 0 4\n4 1 2").toUTF8
    else if path = "notes" then some "two\n".toUTF8
    else none
  writable _ := true

theorem minimization_replaces_guesses :
    AsksFor ["minimize", "-v", "ones", "--canonical", "ones"]
      ((Transformation.minimization .classes).command "ones" "ones") ∧
    guessesStore.writable "ones" = true ∧
    ∃ automaton result after,
      after = run ["minimize", "-v", "ones", "--canonical", "ones"] guessesStore ∧
      guessesStore.Holds "ones" automaton ∧
      (Transformation.minimization .classes).apply automaton = .ok result ∧
      Replaces guessesStore after "ones" result ∧
      Encoding.write result = "2\n2\n0\n0\n0 0 0\n0 1 1\n1 0 1\n1 1 0\n" ∧
      after.store.Holds "ones" result ∧
      (∀ strategy word,
        result.acceptsWith strategy word = automaton.acceptsWith strategy word) ∧
      AnswersAlike guessesStore after.store "ones" "ones" := by
  have asks : AsksFor ["minimize", "-v", "ones", "--canonical", "ones"]
      ((Transformation.minimization .classes).command "ones" "ones") :=
    ⟨.info, by decide +kernel⟩
  have content : (run ["minimize", "-v", "ones", "--canonical", "ones"] guessesStore).store.content?
      "ones" = some "2\n2\n0\n0\n0 0 0\n0 1 1\n1 0 1\n1 1 0\n".toUTF8 := by
    decide +kernel
  have writable : guessesStore.writable "ones" = true := rfl
  refine ⟨asks, writable, ?_⟩
  rcases transformations_replace_target (.minimization .classes) asks writable with
    ⟨automaton, result, holds, applied, replaces, readBack⟩ | ⟨_, failed⟩
  · have text : Encoding.write result = "2\n2\n0\n0\n0 0 0\n0 1 1\n1 0 1\n1 1 0\n" :=
      String.toByteArray_inj.mp (Option.some.inj (replaces.content_target.symm.trans content))
    have fits : (Encoding.write result).utf8ByteSize < UInt64.size := by
      rw [text]
      decide +kernel
    obtain ⟨holdsResult, acceptsWith_eq, alike⟩ := readBack fits
    exact ⟨automaton, result, _, rfl, holds, applied, replaces, text, holdsResult, acceptsWith_eq,
      alike⟩
  · rw [failed] at content
    exact absurd content (by decide +kernel)

end Acceptors.CommandLine
