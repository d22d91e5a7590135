import Acceptors.Proofs.Exactness
import Mathlib.Data.List.Nodup

/-!
Contract: the loop over the queue ends, and how large its result can be.

Owns: runs of the loop with what they put into the queue and take from it, the progress and the
length of these runs, and the bounds on the states and the transitions of the result.
Does not own: which subsets are reachable, and the tables after the last turn.

The queue grows while it is drained. It is first in, first out, so what a run takes from it is
what stood there and what the run put in, in the same order, as soon as nothing is left. The
number taken in a turn is the number of the turn, and every subset has one number.
-/

namespace Acceptors

namespace Worklist

variable {automaton : Automaton} {worklist after final : Worklist}

/-! ## What a turn does to the queue -/

theorem exists_queue_visit (automaton : Automaton) (worklist : Worklist) (source : Nat)
    (subset : StateSet) (symbol : Nat) :
    ∃ added, (worklist.visit automaton source subset symbol).queue = worklist.queue ++ added := by
  simp only [visit]
  split
  · exact ⟨[], (List.append_nil _).symm⟩
  · split
    · exact ⟨[], (List.append_nil _).symm⟩
    · exact ⟨_, rfl⟩

theorem exists_queue_expand (automaton : Automaton) (worklist : Worklist) (source : Nat)
    (subset : StateSet) :
    ∃ added, (worklist.expand automaton source subset).queue = worklist.queue ++ added := by
  unfold expand
  induction automaton.symbols generalizing worklist with
  | nil => exact ⟨[], (List.append_nil _).symm⟩
  | cons symbol rest inductionHypothesis =>
      obtain ⟨first, firstQueue⟩ := exists_queue_visit automaton worklist source subset symbol
      obtain ⟨later, laterQueue⟩ :=
        inductionHypothesis (worklist.visit automaton source subset symbol)
      refine ⟨first ++ later, ?_⟩
      rw [List.foldl_cons, laterQueue, firstQueue, List.append_assoc]

/-- A turn takes the number in front and puts others behind the rest. -/
theorem exists_queue_turn? (turned : worklist.turn? automaton = some after) :
    ∃ source rest added, worklist.queue = source :: rest ∧ after.queue = rest ++ added := by
  unfold turn? at turned
  split at turned
  · cases turned
  · rename_i source rest front
    obtain ⟨subset, _, rfl⟩ := Option.map_eq_some_iff.mp turned
    obtain ⟨added, behind⟩ :=
      exists_queue_expand automaton { worklist with queue := rest } source subset
    exact ⟨source, rest, added, front, behind⟩

/-! ## Runs of the loop -/

/-- The loop leads from one state of the tables to another. The lists hold the numbers that it
puts into the queue and the numbers that it takes from the queue meanwhile, both in order. -/
inductive Passes (automaton : Automaton) :
    Worklist → List Nat → List Nat → Worklist → Prop where
  | done (worklist : Worklist) : Passes automaton worklist [] [] worklist
  | turn {worklist after final : Worklist} {source : Nat} {rest added entered taken : List Nat}
      (front : worklist.queue = source :: rest)
      (turned : worklist.turn? automaton = some after)
      (behind : after.queue = rest ++ added)
      (passes : Passes automaton after entered taken final) :
      Passes automaton worklist (added ++ entered) (source :: taken) final

variable {entered taken : List Nat}

/-- Several turns are a run, which takes one number in each turn. -/
theorem exists_passes_of_turns? {count : Nat}
    (turned : turns? automaton count worklist = some final) :
    ∃ entered taken, Passes automaton worklist entered taken final ∧ taken.length = count := by
  induction count generalizing worklist with
  | zero =>
      cases turned
      exact ⟨[], [], .done _, rfl⟩
  | succ count inductionHypothesis =>
      obtain ⟨after, first, others⟩ := Option.bind_eq_some_iff.mp turned
      obtain ⟨source, rest, added, front, behind⟩ := exists_queue_turn? first
      obtain ⟨entered, taken, passes, length⟩ := inductionHypothesis others
      exact ⟨added ++ entered, source :: taken, .turn front first behind passes,
        congrArg (· + 1) length⟩

/-- The queue is first in, first out. -/
theorem Passes.queue_append (passes : Passes automaton worklist entered taken final) :
    worklist.queue ++ entered = taken ++ final.queue := by
  induction passes with
  | done => exact List.append_nil _
  | turn front _ behind _ inductionHypothesis =>
      rw [behind] at inductionHypothesis
      rw [front, List.cons_append, ← List.append_assoc, inductionHypothesis, List.cons_append]

/-! ## Runs beside the discovery -/

section Beside

variable {discovery : Discovery automaton} {next : Nat}
  (follows : worklist.Follows automaton discovery.subsets next (Before automaton next))

include follows

/-- As long as a number waits, there is a turn. -/
theorem Follows.exists_turn? (waits : worklist.queue ≠ []) :
    ∃ subset, discovery.subsets.key? next = some subset ∧
      ∃ after, worklist.turn? automaton = some after ∧
        after.Follows automaton (discovery.expand subset).subsets (next + 1)
          (Before automaton (next + 1)) := by
  have inside : next < discovery.subsets.size := by
    refine Nat.lt_of_not_le fun finished => waits ?_
    rw [follows.queue_eq, Nat.sub_eq_zero_of_le finished]
    rfl
  obtain ⟨subset, waiting⟩ := Numbering.exists_key?_of_lt inside
  exact ⟨subset, waiting, follows.turn? waiting⟩

/-- With an empty queue the discovery is complete. -/
theorem Follows.eq_size_of_queue_eq_nil (finished : worklist.queue = []) :
    next = discovery.subsets.size := by
  have none := congrArg List.length follows.queue_eq
  rw [finished, List.length_nil, List.length_range'] at none
  exact Nat.le_antisymm follows.next_le (Nat.sub_eq_zero_iff_le.mp none.symm)

/-- A run takes the numbers one after the other, and no subset loses its number. -/
theorem Follows.passes (passes : Passes automaton worklist entered taken final) :
    taken = List.range' next taken.length ∧
      ∃ later : Discovery automaton, later.Extends discovery ∧
        later.complete (next + taken.length) = discovery.complete next ∧
        final.Follows automaton later.subsets (next + taken.length)
          (Before automaton (next + taken.length)) := by
  induction passes generalizing discovery next with
  | done => exact ⟨rfl, discovery, fun _ _ found => found, rfl, follows⟩
  | @turn worklist after final source rest added entered taken front turned _ _
      inductionHypothesis =>
      have waits : worklist.queue ≠ [] := front ▸ List.cons_ne_nil source rest
      obtain ⟨subset, waiting, other, otherTurned, afterFollows⟩ := follows.exists_turn? waits
      obtain rfl := Option.some.inj (otherTurned.symm.trans turned)
      obtain ⟨ascending, later, extension, completes, finalFollows⟩ :=
        inductionHypothesis afterFollows
      have isNext : source = next := by
        have length_pos : discovery.subsets.size - next =
            discovery.subsets.size - next - 1 + 1 := by
          have := Numbering.lt_size_of_key? waiting
          omega
        have heads := front.symm.trans follows.queue_eq
        rw [length_pos, List.range'_succ] at heads
        exact (List.cons.inj heads).1
      have count : next + 1 + taken.length = next + (source :: taken).length := by
        rw [List.length_cons]
        omega
      refine ⟨?_, later, extension.trans (Discovery.expand_extends subset), ?_, ?_⟩
      · rw [List.length_cons, List.range'_succ, ← ascending, isNext]
      · rw [← count, completes, Discovery.complete_of_some waiting]
      · exact count ▸ finalFollows

end Beside

/-! ## Runs from the start -/

/-- A run from the start has taken the numbers before its length, and the discovery beside it
goes on to the reachable subsets. -/
theorem exists_discovery_of_passes
    (passes : Passes automaton (start automaton) entered taken final) :
    taken = List.range taken.length ∧
      ∃ later : Discovery automaton, automaton.reachableSubsets.Extends later ∧
        later.complete taken.length = automaton.reachableSubsets ∧
        final.Follows automaton later.subsets taken.length (Before automaton taken.length) := by
  obtain ⟨ascending, later, _, completes, follows⟩ := (follows_begin automaton).passes passes
  rw [Nat.zero_add] at completes follows
  have extension := later.complete_extends taken.length
  rw [completes] at extension
  rw [List.range_eq_range']
  exact ⟨ascending, later, extension, completes, follows⟩

/-- A run that leaves nothing in the queue has found the reachable subsets. -/
theorem follows_of_queue_eq_nil (passes : Passes automaton (start automaton) entered taken final)
    (finished : final.queue = []) :
    taken = List.range automaton.numberedSubsets.size ∧
      final.Follows automaton automaton.numberedSubsets automaton.numberedSubsets.size
        (Before automaton automaton.numberedSubsets.size) := by
  obtain ⟨ascending, later, _, completes, follows⟩ := exists_discovery_of_passes passes
  have size_eq := follows.eq_size_of_queue_eq_nil finished
  have complete : later = automaton.reachableSubsets := by
    rw [← completes, Discovery.complete_of_none]
    exact Numbering.key?_eq_none_iff.mpr (Nat.le_of_eq size_eq.symm)
  subst complete
  exact ⟨size_eq ▸ ascending, size_eq ▸ follows⟩

/-- The loop ends in the construction, and every number is put into the queue and taken from it
once. -/
structure Drains (automaton : Automaton) (construction : SubsetConstruction) : Prop where
  /-- Whatever turns the loop takes, they are a run. -/
  recorded : ∀ count worklist, turns? automaton count (start automaton) = some worklist →
    ∃ entered taken, Passes automaton (start automaton) entered taken worklist ∧
      taken.length = count
  /-- No run has more turns than there are subsets. -/
  bounded : ∀ worklist entered taken, Passes automaton (start automaton) entered taken worklist →
    taken.length ≤ construction.subsets.size
  /-- Every number that waits has a subset, so that the loop goes on. -/
  continues : ∀ worklist entered taken, Passes automaton (start automaton) entered taken worklist →
    worklist.queue ≠ [] → ∃ after, worklist.turn? automaton = some after
  /-- No subset that was found is lost or renamed. -/
  keeps : ∀ worklist entered taken, Passes automaton (start automaton) entered taken worklist →
    ∀ number subset, worklist.subsets.left? subset = some number →
      worklist.subsets.right? number = some subset ∧ construction.subset? number = some subset
  /-- Some run leaves nothing in the queue. -/
  ends : ∃ final entered taken, Passes automaton (start automaton) entered taken final ∧
    final.queue = []
  /-- Such a run has found all subsets, and has queued and expanded each of them once. -/
  once : ∀ final entered taken, Passes automaton (start automaton) entered taken final →
    final.queue = [] → (final.draft automaton).build = .ok construction.dfa ∧
      ∀ number subset, construction.subset? number = some subset →
        final.subsets.left? subset = some number ∧
          ((start automaton).queue ++ entered).count number = 1 ∧ taken.count number = 1

theorem drains_subsetConstruction (automaton : Automaton) :
    Drains automaton automaton.subsetConstruction where
  recorded := fun _ _ => exists_passes_of_turns?
  bounded := by
    intro worklist entered taken passes
    obtain ⟨_, later, extension, _, follows⟩ := exists_discovery_of_passes passes
    exact Nat.le_trans follows.next_le extension.size_le
  continues := by
    intro worklist entered taken passes waits
    obtain ⟨_, later, _, _, follows⟩ := exists_discovery_of_passes passes
    obtain ⟨_, _, after, turned, _⟩ := follows.exists_turn? waits
    exact ⟨after, turned⟩
  keeps := by
    intro worklist entered taken passes number subset numbered
    obtain ⟨_, later, extension, _, follows⟩ := exists_discovery_of_passes passes
    have found : later.subsets.key? number = some subset := by
      rw [← Numbering.number?_eq_some_iff, ← follows.agrees.left?_eq]
      exact numbered
    exact ⟨(follows.agrees.right?_eq number).trans found, extension number subset found⟩
  ends := by
    obtain ⟨final, turned, follows⟩ := follows_end automaton
    obtain ⟨entered, taken, passes, _⟩ := exists_passes_of_turns? turned
    refine ⟨final, entered, taken, passes, ?_⟩
    rw [follows.queue_eq, Nat.sub_self]
    rfl
  once := by
    intro final entered taken passes finished
    obtain ⟨all, follows⟩ := follows_of_queue_eq_nil passes finished
    have all_entered : (start automaton).queue ++ entered = taken := by
      rw [passes.queue_append, finished, List.append_nil]
    refine ⟨?_, fun number subset found => ?_⟩
    · rw [draft_end follows]
      exact Draft.build_eq_ok automaton.determinize.valid
    · have inside : number < automaton.numberedSubsets.size := Numbering.lt_size_of_key? found
      have once : taken.count number = 1 := by
        rw [all]
        exact List.count_eq_one_of_mem List.nodup_range (List.mem_range.mpr inside)
      refine ⟨?_, all_entered ▸ once, once⟩
      rw [follows.agrees.left?_eq]
      exact Numbering.number?_eq_some_iff.mpr found

end Worklist

namespace Automaton

variable {automaton : Automaton}

/-! ## The size of the result -/

/-- The empty set is not among the subsets behind the states. -/
theorem size_determinize_lt (automaton : Automaton) :
    automaton.determinize.size < Nat.pow 2 automaton.size := by
  rw [size_determinize, Numbering.size_eq_length]
  refine StateSet.length_lt_pow automaton.numberedSubsets.nodup_toList ?_
    automaton.reachableSubsets.within
  exact Numbering.number?_eq_none_iff.mp empty_not_numbered

/-- The loop over the queue ends, with every subset queued once and expanded once. There are
fewer states in the result than sets of states, and at most one transition for each of them and
each symbol, with one target. -/
theorem subsetConstruction_terminates (automaton : Automaton) :
    Worklist.Drains automaton automaton.subsetConstruction ∧
      automaton.determinize.size ≤ Nat.pow 2 automaton.size - 1 ∧
      automaton.determinize.transitionCount ≤
        automaton.determinize.size * automaton.alphabetSize ∧
      ∀ source symbol targets, automaton.determinize.successors? source symbol = some targets →
        targets.size = 1 := by
  refine ⟨Worklist.drains_subsetConstruction automaton, ?_, ?_, ?_⟩
  · exact Nat.le_sub_one_of_lt automaton.size_determinize_lt
  · have bound := transitionCount_le automaton.determinize
    rwa [alphabetSize_determinize] at bound
  · intro source symbol targets listed
    have single : automaton.determinize.ambiguity? = none :=
      unambiguous_iff.mp unambiguous_determinize
    exact ambiguity?_eq_none_iff.mp single ⟨source, symbol⟩ targets listed

end Automaton

end Acceptors
