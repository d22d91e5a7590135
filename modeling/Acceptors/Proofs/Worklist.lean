import Acceptors.Proofs.Determinization
import Acceptors.Worklist

/-!
Contract: one pass over the queue ends in the subset construction.

Owns: the invariant that ties the tables of the loop to a numbering of subsets, its
preservation by every operation of the loop, and the tables after the last turn.
Does not own: which subsets are reachable.

The queue always holds the numbers from the next one to expand up to the last one given.
So numbers are queued once, in ascending order, and the number of turns is the number of
subsets.
-/

namespace Acceptors

/-! ## Two-way tables -/

namespace TwoWay

section

variable {Left Right : Type} [Ord Left] [Std.TransOrd Left] [Ord Right] [Std.TransOrd Right]

/-- A pair that shares no side with another displaces nothing. -/
theorem insert_of_fresh {table : TwoWay Left Right} {left : Left} {right : Right}
    (newLeft : table.right? left = none) (newRight : table.left? right = none) :
    table.insert left right = ⟨table.rights.insert left right, table.lefts.insert right left⟩ := by
  have keepsLeft : table.dropLeft left = table := by
    rw [dropLeft, newLeft]
  have keepsRight : table.dropRight right = table := by
    rw [dropRight, newRight]
  rw [insert, keepsLeft, keepsRight]

end

variable {Key : Type} [Ord Key] [Std.TransOrd Key] [Std.LawfulEqOrd Key]

/-- The table holds the pairs of the numbering. -/
structure Agrees (table : TwoWay Nat Key) (numbering : Numbering Key) : Prop where
  right?_eq : ∀ number, table.right? number = numbering.key? number
  left?_eq : ∀ key, table.left? key = numbering.number? key
  size_eq : table.size = numbering.size

theorem agrees_empty : (empty : TwoWay Nat Key).Agrees Numbering.empty where
  right?_eq := fun _ => by simp [right?, empty, Numbering.key?, Numbering.empty]
  left?_eq := fun _ => by simp [left?, empty, Numbering.number?, Numbering.empty]
  size_eq := by simp [size, empty, Numbering.size, Numbering.empty]

/-- Under the next number, a new key displaces nothing. -/
theorem Agrees.insert {table : TwoWay Nat Key} {numbering : Numbering Key}
    (agrees : table.Agrees numbering) {key : Key} (unseen : numbering.number? key = none) :
    (table.insert numbering.size key).Agrees (numbering.insert key) := by
  have newLeft : table.right? numbering.size = none := by
    rw [agrees.right?_eq]
    exact Numbering.key?_eq_none_iff.mpr (Nat.le_refl _)
  have newRight : table.left? key = none := (agrees.left?_eq key).trans unseen
  rw [insert_of_fresh newLeft newRight]
  constructor
  · intro number
    show (table.rights.insert numbering.size key)[number]? = _
    rw [Std.ExtTreeMap.getElem?_insert, Numbering.key?_insert_of_new unseen, ← agrees.right?_eq]
    exact ite_congr (propext (Std.LawfulEqCmp.compare_eq_iff_eq.trans eq_comm)) (fun _ => rfl)
      fun _ => rfl
  · intro other
    show (table.lefts.insert key numbering.size)[other]? = _
    rw [Std.ExtTreeMap.getElem?_insert, Numbering.number?_insert_of_new unseen, ← agrees.left?_eq]
    rfl
  · have absent : table.rights.contains numbering.size = false := by
      rw [Std.ExtTreeMap.contains_eq_isSome_getElem?]
      exact congrArg Option.isSome newLeft
    show (table.rights.insert numbering.size key).size = _
    rw [Std.ExtTreeMap.size_insert, absent, Numbering.size_insert_of_new unseen, ← agrees.size_eq]
    rfl

end TwoWay

/-! ## The loop -/

namespace Worklist

variable {automaton : Automaton}

/-- The tables hold a numbering of subsets, and the departures that were followed have their
transitions. -/
structure Follows (worklist : Worklist) (automaton : Automaton) (numbering : Numbering StateSet)
    (next : Nat) (followed : Nat → Nat → Prop) : Prop where
  agrees : worklist.subsets.Agrees numbering
  next_le : next ≤ numbering.size
  /-- The numbers that wait are those from `next` on. -/
  queue_eq : worklist.queue = List.range' next (numbering.size - next)
  mem_accepting_iff : ∀ number, number ∈ worklist.accepting ↔
    ∃ subset, numbering.key? number = some subset ∧ subset.intersects automaton.accepting = true
  followed_lt : ∀ source symbol, followed source symbol → source < numbering.size
  /-- A transition leads to the number of the image. -/
  leads : ∀ source symbol targets,
    worklist.transitions[(⟨source, symbol⟩ : Departure)]? = some targets →
      ∃ subset target, numbering.key? source = some subset ∧
        numbering.number? (automaton.image subset symbol) = some target ∧
        targets = StateSet.singleton target
  /-- A departure that was followed has a transition unless nothing is reached. -/
  covers : ∀ source symbol subset, followed source symbol → numbering.key? source = some subset →
    automaton.image subset symbol ≠ ∅ →
      ∃ targets, worklist.transitions[(⟨source, symbol⟩ : Departure)]? = some targets

variable {worklist : Worklist} {numbering : Numbering StateSet} {next : Nat}
  {followed : Nat → Nat → Prop}

/-! ## One subset more -/

theorem mem_accepting_enqueue_iff {number other : Nat} {subset : StateSet} :
    other ∈ (worklist.enqueue automaton number subset).accepting ↔
      other ∈ worklist.accepting ∨
        other = number ∧ subset.intersects automaton.accepting = true := by
  unfold enqueue
  by_cases accepts : subset.intersects automaton.accepting = true
  · simp [accepts, or_comm]
  · simp [accepts]

/-- A new subset gets the next number and waits behind all others. -/
theorem Follows.enqueue (follows : worklist.Follows automaton numbering next followed)
    {subset : StateSet} (unseen : numbering.number? subset = none) :
    (worklist.enqueue automaton numbering.size subset).Follows automaton
      (numbering.insert subset) next followed where
  agrees := follows.agrees.insert unseen
  next_le := by
    rw [Numbering.size_insert_of_new unseen]
    exact Nat.le_succ_of_le follows.next_le
  queue_eq := by
    have last := follows.next_le
    show worklist.queue ++ [numbering.size] = _
    rw [follows.queue_eq, Numbering.size_insert_of_new unseen, Nat.sub_add_comm last,
      List.range'_1_concat, Nat.add_sub_cancel' last]
  mem_accepting_iff := by
    intro number
    have before := follows.mem_accepting_iff number
    rw [mem_accepting_enqueue_iff, Numbering.key?_insert_of_new unseen]
    by_cases last : number = numbering.size
    · have notBefore : number ∉ worklist.accepting := by
        rw [before, last, Numbering.key?_eq_none_iff.mpr (Nat.le_refl _)]
        simp
      simp [last ▸ notBefore, last]
    · rw [if_neg last, ← before]
      simp [last]
  followed_lt := by
    intro source symbol isFollowed
    rw [Numbering.size_insert_of_new unseen]
    exact Nat.lt_succ_of_lt (follows.followed_lt source symbol isFollowed)
  leads := by
    intro source symbol targets listed
    obtain ⟨other, target, found, numbered, rfl⟩ := follows.leads source symbol targets listed
    exact ⟨other, target, Numbering.key?_insert found, Numbering.number?_insert numbered, rfl⟩
  covers := by
    intro source symbol other isFollowed found nonempty
    refine follows.covers source symbol other isFollowed ?_ nonempty
    rwa [Numbering.key?_insert_of_new unseen,
      if_neg (Nat.ne_of_lt (follows.followed_lt source symbol isFollowed))] at found

theorem follows_blank : Follows ⟨.empty, ∅, ∅, []⟩ automaton Numbering.empty 0
    (fun _ _ => False) where
  agrees := TwoWay.agrees_empty
  next_le := Nat.zero_le _
  queue_eq := rfl
  mem_accepting_iff := by
    intro number
    simp [Numbering.key?, Numbering.empty]
  followed_lt := fun _ _ impossible => impossible.elim
  leads := by
    intro source symbol targets listed
    simp at listed
  covers := fun _ _ _ impossible => impossible.elim

theorem follows_start : (start automaton).Follows automaton
    (Discovery.start automaton).subsets 0 (fun _ _ => False) :=
  follows_blank.enqueue (by simp [Numbering.number?, Numbering.empty])

/-! ## One departure more -/

theorem getElem?_addTransition {source symbol target otherSource otherSymbol : Nat} :
    (worklist.addTransition source symbol target).transitions[
      (⟨otherSource, otherSymbol⟩ : Departure)]? =
        if otherSource = source ∧ otherSymbol = symbol then some (StateSet.singleton target)
        else worklist.transitions[(⟨otherSource, otherSymbol⟩ : Departure)]? := by
  unfold addTransition
  rw [Std.ExtTreeMap.getElem?_insert]
  simp only [Std.LawfulEqCmp.compare_eq_iff_eq, Departure.mk.injEq, @eq_comm Nat source,
    @eq_comm Nat symbol]

/-- A transition to the image of a subset may be added at any time. -/
theorem Follows.addTransition (follows : worklist.Follows automaton numbering next followed)
    {source symbol target : Nat} {subset : StateSet} (found : numbering.key? source = some subset)
    (numbered : numbering.number? (automaton.image subset symbol) = some target) :
    (worklist.addTransition source symbol target).Follows automaton numbering next followed where
  agrees := follows.agrees
  next_le := follows.next_le
  queue_eq := follows.queue_eq
  mem_accepting_iff := follows.mem_accepting_iff
  followed_lt := follows.followed_lt
  leads := by
    intro otherSource otherSymbol targets listed
    rw [getElem?_addTransition] at listed
    split at listed
    · rename_i same
      obtain ⟨rfl, rfl⟩ := same
      exact ⟨subset, target, found, numbered, (Option.some.inj listed).symm⟩
    · exact follows.leads otherSource otherSymbol targets listed
  covers := by
    intro otherSource otherSymbol other isFollowed known nonempty
    rw [getElem?_addTransition]
    split
    · exact ⟨_, rfl⟩
    · exact follows.covers otherSource otherSymbol other isFollowed known nonempty

/-- A departure counts as followed once its transition is there or nothing is reached. -/
theorem Follows.follow (follows : worklist.Follows automaton numbering next followed)
    {source symbol : Nat} {subset : StateSet} (found : numbering.key? source = some subset)
    (covered : automaton.image subset symbol ≠ ∅ →
      ∃ targets, worklist.transitions[(⟨source, symbol⟩ : Departure)]? = some targets) :
    worklist.Follows automaton numbering next (fun otherSource otherSymbol =>
      followed otherSource otherSymbol ∨ otherSource = source ∧ otherSymbol = symbol) where
  agrees := follows.agrees
  next_le := follows.next_le
  queue_eq := follows.queue_eq
  mem_accepting_iff := follows.mem_accepting_iff
  followed_lt := by
    rintro otherSource otherSymbol (earlier | ⟨rfl, rfl⟩)
    · exact follows.followed_lt otherSource otherSymbol earlier
    · exact Numbering.lt_size_of_key? found
  leads := follows.leads
  covers := by
    rintro otherSource otherSymbol other (earlier | ⟨rfl, rfl⟩) known nonempty
    · exact follows.covers otherSource otherSymbol other earlier known nonempty
    · rw [found] at known
      cases known
      exact covered nonempty

/-- One symbol of one subset, beside the discovery. -/
theorem Follows.visit {discovery : Discovery automaton}
    (follows : worklist.Follows automaton discovery.subsets next followed)
    {source : Nat} {subset : StateSet} (found : discovery.subsets.key? source = some subset)
    (symbol : Nat) :
    (worklist.visit automaton source subset symbol).Follows automaton
      (discovery.visit subset symbol).subsets next (fun otherSource otherSymbol =>
        followed otherSource otherSymbol ∨ otherSource = source ∧ otherSymbol = symbol) := by
  simp only [Worklist.visit, Discovery.visit]
  have lookedUp := follows.agrees.left?_eq (automaton.image subset symbol)
  have covered (current : Worklist) (target : Nat) : ∃ targets,
      (current.addTransition source symbol target).transitions[
        (⟨source, symbol⟩ : Departure)]? = some targets :=
    ⟨_, by rw [getElem?_addTransition, if_pos ⟨rfl, rfl⟩]⟩
  by_cases nothing : (automaton.image subset symbol).isEmpty = true
  · rw [if_pos nothing, if_pos nothing]
    exact follows.follow found fun nonempty => absurd (StateSet.isEmpty_iff.mp nothing) nonempty
  · rw [if_neg nothing, if_neg nothing]
    cases known : worklist.subsets.left? (automaton.image subset symbol) with
    | some target =>
        have numbered := lookedUp.symm.trans known
        show Worklist.Follows _ _ (discovery.subsets.insert _) _ _
        rw [Numbering.insert_of_number? numbered]
        exact (follows.addTransition found numbered).follow found fun _ => covered _ _
    | none =>
        have unseen := lookedUp.symm.trans known
        have queued := follows.enqueue unseen
        have stillFound : (discovery.subsets.insert (automaton.image subset symbol)).key? source =
            some subset := Numbering.key?_insert found
        have numbered : (discovery.subsets.insert (automaton.image subset symbol)).number?
            (automaton.image subset symbol) = some discovery.subsets.size := by
          rw [Numbering.number?_insert_of_new unseen, if_pos Std.ReflCmp.compare_self]
        rw [follows.agrees.size_eq]
        exact (queued.addTransition stillFound numbered).follow stillFound fun _ => covered _ _

/-- All symbols of one subset, beside the discovery. -/
theorem Follows.expand {discovery : Discovery automaton}
    (follows : worklist.Follows automaton discovery.subsets next followed)
    {source : Nat} {subset : StateSet} (found : discovery.subsets.key? source = some subset) :
    (worklist.expand automaton source subset).Follows automaton (discovery.expand subset).subsets
      next (fun otherSource otherSymbol => followed otherSource otherSymbol ∨
        otherSource = source ∧ otherSymbol < automaton.alphabetSize) := by
  have folded (symbols : List Nat) (current : Worklist) (beside : Discovery automaton)
      (before : Nat → Nat → Prop) (known : beside.subsets.key? source = some subset)
      (currentFollows : current.Follows automaton beside.subsets next before) :
      (symbols.foldl (fun current symbol => current.visit automaton source subset symbol)
        current).Follows automaton
          (symbols.foldl (fun current symbol => current.visit subset symbol) beside).subsets next
          (fun otherSource otherSymbol => before otherSource otherSymbol ∨
            otherSource = source ∧ otherSymbol ∈ symbols) := by
    induction symbols generalizing current beside before with
    | nil => simpa using currentFollows
    | cons head tail inductionHypothesis =>
        have visited := currentFollows.visit known head
        have rest := inductionHypothesis _ _ _ (Discovery.visit_extends subset head _ _ known)
          visited
        simpa only [List.foldl_cons, List.mem_cons, and_or_left, or_assoc] using rest
  have all := folded automaton.symbols worklist discovery followed found follows
  simp only [Automaton.symbols, List.mem_range] at all
  exact all

/-! ## Turns -/

/-- The departures of the subsets before a number. -/
def Before (automaton : Automaton) (next source symbol : Nat) : Prop :=
  source < next ∧ symbol < automaton.alphabetSize

theorem follows_begin (automaton : Automaton) : (start automaton).Follows automaton
    (Discovery.start automaton).subsets 0 (Before automaton 0) := by
  have nothingBefore : (fun _ _ => False) = Before automaton 0 := by
    funext source symbol
    simp [Before]
  exact nothingBefore ▸ follows_start

/-- One turn expands the next subset. -/
theorem Follows.turn? {discovery : Discovery automaton}
    (follows : worklist.Follows automaton discovery.subsets next (Before automaton next))
    {subset : StateSet} (waiting : discovery.subsets.key? next = some subset) :
    ∃ after, worklist.turn? automaton = some after ∧
      after.Follows automaton (discovery.expand subset).subsets (next + 1)
        (Before automaton (next + 1)) := by
  have inside := Numbering.lt_size_of_key? waiting
  have front : worklist.queue =
      next :: List.range' (next + 1) (discovery.subsets.size - (next + 1)) := by
    have length : discovery.subsets.size - next = discovery.subsets.size - (next + 1) + 1 := by
      omega
    rw [follows.queue_eq, length, List.range'_succ]
  let popped : Worklist := { worklist with
    queue := List.range' (next + 1) (discovery.subsets.size - (next + 1)) }
  have poppedFollows : popped.Follows automaton discovery.subsets (next + 1)
      (Before automaton next) := { follows with next_le := inside, queue_eq := rfl }
  have sameDepartures : (fun source symbol => Before automaton next source symbol ∨
      source = next ∧ symbol < automaton.alphabetSize) = Before automaton (next + 1) := by
    funext source symbol
    rw [Before, Before, ← or_and_right, Nat.lt_succ_iff_lt_or_eq]
  refine ⟨popped.expand automaton next subset, ?_, ?_⟩
  · rw [Worklist.turn?, front]
    show Option.map _ (worklist.subsets.right? next) = _
    rw [follows.agrees.right?_eq, waiting]
    rfl
  · exact sameDepartures ▸ poppedFollows.expand waiting

/-- The loop ends after as many turns as there are subsets left to expand. -/
theorem Follows.turns? {discovery : Discovery automaton} {next : Nat} {worklist : Worklist}
    (follows : worklist.Follows automaton discovery.subsets next (Before automaton next)) :
    ∃ count final, next + count = (discovery.complete next).subsets.size ∧
      turns? automaton count worklist = some final ∧
      final.Follows automaton (discovery.complete next).subsets
        (discovery.complete next).subsets.size
        (Before automaton (discovery.complete next).subsets.size) := by
  fun_induction Discovery.complete discovery next generalizing worklist with
  | case1 discovery next finished =>
      have last : next = discovery.subsets.size :=
        Nat.le_antisymm follows.next_le (Numbering.key?_eq_none_iff.mp finished)
      exact ⟨0, worklist, last, rfl, last ▸ follows⟩
  | case2 discovery next subset waiting inductionHypothesis =>
      obtain ⟨after, turned, afterFollows⟩ := follows.turn? waiting
      obtain ⟨count, final, ends, rest, finalFollows⟩ := inductionHypothesis afterFollows
      refine ⟨count + 1, final, ?_, ?_, finalFollows⟩
      · rw [← ends, Nat.add_comm count, Nat.add_assoc]
      · rw [Worklist.turns?, turned]
        exact rest

/-- The tables after the last turn. -/
theorem follows_end (automaton : Automaton) : ∃ final,
    turns? automaton automaton.numberedSubsets.size (start automaton) = some final ∧
      final.Follows automaton automaton.numberedSubsets automaton.numberedSubsets.size
        (Before automaton automaton.numberedSubsets.size) := by
  obtain ⟨count, final, ends, turned, follows⟩ := (follows_begin automaton).turns?
  rw [Nat.zero_add] at ends
  exact ⟨final, ends ▸ turned, follows⟩

/-! ## The tables in the end -/

section

variable {final : Worklist}
  (follows : final.Follows automaton automaton.numberedSubsets automaton.numberedSubsets.size
    (Before automaton automaton.numberedSubsets.size))

include follows

theorem mem_targets_end_iff {source symbol target : Nat} :
    target ∈ (final.draft automaton).targets source symbol ↔
      ∃ subset, automaton.numberedSubsets.key? source = some subset ∧
        symbol < automaton.alphabetSize ∧
        automaton.numberedSubsets.number? (automaton.image subset symbol) = some target := by
  constructor
  · intro moves
    cases listed : final.transitions[(⟨source, symbol⟩ : Departure)]? with
    | none => simp [Draft.targets, draft, listed] at moves
    | some targets =>
        obtain ⟨subset, other, found, numbered, rfl⟩ := follows.leads source symbol targets listed
        have same : target = other := by simpa [Draft.targets, draft, listed] using moves
        exact ⟨subset, found, Automaton.symbol_lt_of_number?_image numbered, same ▸ numbered⟩
  · rintro ⟨subset, found, inAlphabet, numbered⟩
    obtain ⟨targets, listed⟩ := follows.covers source symbol subset
      ⟨Numbering.lt_size_of_key? found, inAlphabet⟩ found (Automaton.ne_empty_of_number? numbered)
    obtain ⟨same, other, sameFound, otherNumbered, rfl⟩ :=
      follows.leads source symbol targets listed
    rw [found] at sameFound
    cases sameFound
    rw [numbered] at otherNumbered
    cases otherNumbered
    simp [Draft.targets, draft, listed]

theorem accepting_end : final.accepting = automaton.determinize.accepting := by
  ext number
  rw [follows.mem_accepting_iff]
  constructor
  · rintro ⟨subset, found, accepts⟩
    exact Automaton.isAccepting_iff.mp ((Automaton.isAccepting_determinize found).trans accepts)
  · intro accepts
    have inside := automaton.determinize.valid.accepting_lt number accepts
    rw [Automaton.size_determinize] at inside
    obtain ⟨subset, found⟩ := Numbering.exists_key?_of_lt inside
    refine ⟨subset, found, ?_⟩
    rw [← Automaton.isAccepting_determinize found]
    exact Automaton.isAccepting_iff.mpr accepts

/-- The draft that the final tables describe is the deterministic automaton. -/
theorem draft_end : final.draft automaton = automaton.determinize.toDraft := by
  have pruned : (final.draft automaton).Pruned := by
    intro departure targets listed
    obtain ⟨_, target, _, _, rfl⟩ := follows.leads departure.source departure.symbol targets listed
    exact StateSet.ne_empty_iff.mpr ⟨target, StateSet.mem_singleton.mpr rfl⟩
  apply Draft.ext_targets pruned automaton.determinize.valid.pruned
  · exact follows.agrees.size_eq.trans Automaton.size_determinize.symm
  · exact Automaton.alphabetSize_determinize.symm
  · exact Automaton.initial_determinize.symm
  · exact accepting_end follows
  · intro source symbol
    ext target
    rw [mem_targets_end_iff follows, Automaton.mem_targets_determinize_iff]

end

/-- After as many turns as there are subsets the queue is empty and the tables are those of
the construction. -/
def EndsIn (automaton : Automaton) (construction : SubsetConstruction) : Prop :=
  ∃ final, turns? automaton construction.subsets.size (start automaton) = some final ∧
    final.queue = [] ∧ final.subsets.Agrees construction.subsets ∧
    (final.draft automaton).build = .ok construction.dfa

theorem endsIn_subsetConstruction (automaton : Automaton) :
    EndsIn automaton automaton.subsetConstruction := by
  obtain ⟨final, turned, follows⟩ := follows_end automaton
  refine ⟨final, turned, ?_, follows.agrees, ?_⟩
  · rw [follows.queue_eq, Nat.sub_self]
    rfl
  · rw [draft_end follows]
    exact Draft.build_eq_ok automaton.determinize.valid

end Worklist

end Acceptors
