import Acceptors.Attempt
import Acceptors.Proofs.Grammar

/-!
Contract: the reader of lines accepts the grammar and nothing else.

Owns: what it means for each part of the reader to succeed, and the automaton that a
successful reading returns.
Does not own: the grammar, and the reasons for which lines are refused.

Each part of the reader gets one equivalence that says when it succeeds and with which
result, and the equivalence of the whole is put together from these. No line number occurs
in them, as line numbers only serve to report what was refused.
-/

namespace Acceptors

namespace Encoding

open Grammar

/-! ## Successful parts of a computation -/

section Except

variable {Error First Second : Type}

theorem mapM_eq_ok_iff {step : First → Except Error Second} {items : List First}
    {results : List Second} :
    items.mapM step = .ok results ↔
      List.Forall₂ (fun item result => step item = .ok result) items results := by
  induction items generalizing results with
  | nil =>
      rw [List.mapM_nil, List.forall₂_nil_left_iff, pure_eq_ok_iff]
  | cons head tail inductionHypothesis =>
      rw [List.mapM_cons, List.forall₂_cons_left_iff, bind_eq_ok_iff]
      simp only [bind_eq_ok_iff, inductionHypothesis, pure_eq_ok_iff, exists_and_left]

end Except

/-! ## One line -/

theorem numberOf_eq_ok_iff {line value : Nat} {token : List Char} :
    numberOf line (String.ofList token) = .ok value ↔ Text.Numeral.Denotes token value := by
  rw [← Text.Numeral.charsValue?_eq_some_iff, numberOf, Text.Numeral.parse?, String.toList_ofList]
  cases Text.Numeral.charsValue? token <;> simp

/-- A line is read as the numbers that it holds. -/
theorem numbers_eq_ok_iff {line : Nat} {content : String} {values : List Nat} :
    numbers line content = .ok values ↔ Holds content values := by
  simp only [numbers, mapM_eq_ok_iff, Text.tokens, List.forall₂_map_left_iff, numberOf_eq_ok_iff,
    Holds, Text.runs_iff, exists_eq_left']

theorem singleNumber_eq_ok_iff {line value : Nat} {content : String} :
    singleNumber line content = .ok value ↔ Holds content [value] := by
  rw [singleNumber, bind_eq_ok_iff]
  simp only [numbers_eq_ok_iff]
  constructor
  · intro ⟨values, holds, single⟩
    split at single
    · cases single
      exact holds
    · cases single
  · intro holds
    exact ⟨[value], holds, rfl⟩

/-- A line that is not blank is read if it holds transitions, as one edge for each target. -/
theorem edgesOnLine_eq_ok_iff {header : Header} {line : Nat} {content : String}
    {edges : List Edge} (visible : ¬Blank content) :
    edgesOnLine header line content = .ok edges ↔
      ∃ source symbol targets, Holds content (source :: symbol :: targets) ∧ targets ≠ [] ∧
        source < header.size ∧ symbol < header.alphabetSize ∧
          (∀ target ∈ targets, target < header.size) ∧
            edges = targets.map fun target => ⟨source, symbol, target⟩ := by
  rw [edgesOnLine, if_neg (isEmpty_trim_iff.not.mpr visible), bind_eq_ok_iff]
  simp only [numbers_eq_ok_iff]
  constructor
  · rintro ⟨values, holds, result⟩
    split at result
    · rename_i source symbol target more
      simp only [bind_eq_ok_iff, checkStates_eq_ok_iff, refuse_eq_ok_iff,
        symbolViolation?_eq_none_iff, pure_eq_ok_iff] at result
      obtain ⟨_, sourceChecked, _, symbolChecked, _, targetsChecked, same⟩ := result
      exact ⟨source, symbol, target :: more, holds, List.cons_ne_nil _ _,
        sourceChecked source List.mem_cons_self, symbolChecked, targetsChecked, same⟩
    · cases result
  · rintro ⟨source, symbol, targets, holds, nonempty, source_lt, symbol_lt, target_lt, same⟩
    obtain ⟨target, more, rfl⟩ := List.exists_cons_of_ne_nil nonempty
    refine ⟨_, holds, ?_⟩
    simp only [bind_eq_ok_iff, checkStates_eq_ok_iff, refuse_eq_ok_iff,
      symbolViolation?_eq_none_iff, pure_eq_ok_iff]
    have sourceChecked : ∀ state ∈ [source], state < header.size := by simpa using source_lt
    exact ⟨(), sourceChecked, (), symbol_lt, (), target_lt, same⟩

theorem edgesOnLine_of_blank {header : Header} {line : Nat} {content : String}
    (blank : Blank content) : edgesOnLine header line content = .ok [] := by
  rw [edgesOnLine, if_pos (isEmpty_trim_iff.mpr blank)]
  rfl

theorem exists_edgesOnLine {header : Header} {content : String}
    (usable : Blank content ∨ HoldsTransitions header content) (line : Nat) :
    ∃ edges, edgesOnLine header line content = .ok edges := by
  by_cases blank : Blank content
  · exact ⟨[], edgesOnLine_of_blank blank⟩
  · obtain ⟨source, symbol, targets, holds, parts⟩ := usable.resolve_left blank
    exact ⟨_, (edgesOnLine_eq_ok_iff blank).mpr
      ⟨source, symbol, targets, holds, parts.1, parts.2.1, parts.2.2.1, parts.2.2.2, rfl⟩⟩

/-- A line that is read lists the edges that it is read as, and its indices are in range. -/
theorem lists_iff_of_edgesOnLine {header : Header} {line : Nat} {content : String}
    {edges : List Edge} (read : edgesOnLine header line content = .ok edges) :
    (Blank content ∨ HoldsTransitions header content) ∧
      ∀ edge, edge ∈ edges ↔ Lists content edge := by
  by_cases blank : Blank content
  · rw [edgesOnLine_of_blank blank] at read
    cases read
    refine ⟨Or.inl blank, fun edge => iff_of_false List.not_mem_nil ?_⟩
    intro ⟨targets, holds, _⟩
    cases holds.unique blank.holds_nil
  · obtain ⟨source, symbol, targets, holds, nonempty, source_lt, symbol_lt, target_lt, rfl⟩ :=
      (edgesOnLine_eq_ok_iff blank).mp read
    refine ⟨Or.inr ⟨source, symbol, targets, holds, nonempty, source_lt, symbol_lt, target_lt⟩, ?_⟩
    intro edge
    rw [List.mem_map]
    constructor
    · rintro ⟨target, belongs, rfl⟩
      exact ⟨targets, holds, belongs⟩
    · intro ⟨others, otherHolds, belongs⟩
      cases holds.unique otherHolds
      exact ⟨edge.target, belongs, rfl⟩

/-! ## Header lines -/

theorem takeLine_eq_ok_iff {line : HeaderLine} {lines rest : List String} {content : String} :
    takeLine line lines = .ok (content, rest) ↔
      ∃ first, lines = first :: rest ∧ content = Text.trim first := by
  cases lines with
  | nil => simp [takeLine]
  | cons first others => simp [takeLine, and_comm, eq_comm]

theorem headerNumber_eq_ok_iff {line : HeaderLine} {lines rest : List String} {value : Nat} :
    headerNumber line lines = .ok (value, rest) ↔
      ∃ content, lines = content :: rest ∧ Holds content [value] := by
  simp only [headerNumber, bind_eq_ok_iff, pure_eq_ok_iff, Prod.exists, takeLine_eq_ok_iff,
    singleNumber_eq_ok_iff]
  constructor
  · rintro ⟨_, _, ⟨first, rfl, rfl⟩, _, holds, same⟩
    cases same
    exact ⟨first, rfl, holds_trim_iff.mp holds⟩
  · rintro ⟨content, rfl, holds⟩
    exact ⟨_, _, ⟨content, rfl, rfl⟩, _, holds_trim_iff.mpr holds, rfl⟩

theorem statesOnLine_eq_ok_iff {size line : Nat} {content : String} {states : List Nat} :
    statesOnLine size line content = .ok states ↔
      Holds content states ∧ ∀ state ∈ states, state < size := by
  simp only [statesOnLine, bind_eq_ok_iff, numbers_eq_ok_iff, checkStates_eq_ok_iff,
    pure_eq_ok_iff]
  constructor
  · rintro ⟨_, holds, _, inRange, rfl⟩
    exact ⟨holds, inRange⟩
  · rintro ⟨holds, inRange⟩
    exact ⟨states, holds, (), inRange, rfl⟩

theorem headerStates_eq_ok_iff {line : HeaderLine} {size : Nat} {lines rest : List String}
    {states : List Nat} :
    headerStates line size lines = .ok (states, rest) ↔
      ∃ content, lines = content :: rest ∧ Holds content states ∧
        ∀ state ∈ states, state < size := by
  simp only [headerStates, bind_eq_ok_iff, pure_eq_ok_iff, Prod.exists, takeLine_eq_ok_iff,
    statesOnLine_eq_ok_iff]
  constructor
  · rintro ⟨_, _, ⟨first, rfl, rfl⟩, _, ⟨holds, inRange⟩, same⟩
    cases same
    exact ⟨first, rfl, holds_trim_iff.mp holds, inRange⟩
  · rintro ⟨content, rfl, holds, inRange⟩
    exact ⟨_, _, ⟨content, rfl, rfl⟩, _, ⟨holds_trim_iff.mpr holds, inRange⟩, rfl⟩

/-- A header is read if the lines start with it and all its states are in range. -/
theorem readHeader_eq_ok_iff {lines later : List String} {header : Header} :
    readHeader lines = .ok (header, later) ↔
      HeaderLines lines header later ∧ (∀ state ∈ header.initial, state < header.size) ∧
        ∀ state ∈ header.accepting, state < header.size := by
  simp only [readHeader, bind_eq_ok_iff, pure_eq_ok_iff, Prod.exists, headerNumber_eq_ok_iff,
    headerStates_eq_ok_iff]
  constructor
  · rintro ⟨size, _, ⟨first, rfl, sizeHeld⟩, alphabetSize, _, ⟨second, rfl, alphabetSizeHeld⟩,
      initial, _, ⟨third, rfl, initialHeld, initialInRange⟩,
      accepting, _, ⟨fourth, rfl, acceptingHeld, acceptingInRange⟩, same⟩
    cases same
    exact ⟨.intro sizeHeld alphabetSizeHeld initialHeld acceptingHeld, initialInRange,
      acceptingInRange⟩
  · rintro ⟨headerLines, initialInRange, acceptingInRange⟩
    cases headerLines with
    | intro sizeHeld alphabetSizeHeld initialHeld acceptingHeld =>
        exact ⟨_, _, ⟨_, rfl, sizeHeld⟩, _, _, ⟨_, rfl, alphabetSizeHeld⟩,
          _, _, ⟨_, rfl, initialHeld, initialInRange⟩,
          _, _, ⟨_, rfl, acceptingHeld, acceptingInRange⟩, rfl⟩

/-! ## Lines of transitions -/

theorem readEdges_eq_ok_iff {header : Header} {lines : List (String × Nat)} {edges : List Edge} :
    readEdges header lines = .ok edges ↔
      ∃ lists, List.Forall₂ (fun line listed => edgesOnLine header line.2 line.1 = .ok listed)
        lines lists ∧ edges = lists.flatten := by
  rw [readEdges, map_eq_ok_iff]
  simp only [mapM_eq_ok_iff]

/-- Lines of transitions are read if each of them can be used. -/
theorem exists_readEdges {header : Header} {contents : List String}
    (usable : ∀ content ∈ contents, Blank content ∨ HoldsTransitions header content)
    (line : Nat) : ∃ edges, readEdges header (contents.zipIdx line) = .ok edges := by
  have lists : ∃ lists, List.Forall₂
      (fun line listed => edgesOnLine header line.2 line.1 = .ok listed)
      (contents.zipIdx line) lists := by
    induction contents generalizing line with
    | nil => exact ⟨[], .nil⟩
    | cons head tail inductionHypothesis =>
        obtain ⟨listed, read⟩ := exists_edgesOnLine (usable head List.mem_cons_self) line
        obtain ⟨others, readOthers⟩ := inductionHypothesis
          (fun content later => usable content (List.mem_cons_of_mem _ later)) (line + 1)
        exact ⟨listed :: others, .cons read readOthers⟩
  obtain ⟨lists, read⟩ := lists
  exact ⟨lists.flatten, readEdges_eq_ok_iff.mpr ⟨lists, read, rfl⟩⟩

theorem lists_iff_of_readEdges {header : Header} {contents : List String} {line : Nat}
    {edges : List Edge} (read : readEdges header (contents.zipIdx line) = .ok edges) :
    (∀ content ∈ contents, Blank content ∨ HoldsTransitions header content) ∧
      ∀ edge, edge ∈ edges ↔ ∃ content ∈ contents, Lists content edge := by
  obtain ⟨lists, readLists, rfl⟩ := readEdges_eq_ok_iff.mp read
  clear read
  induction contents generalizing line lists with
  | nil =>
      cases readLists
      simp
  | cons head tail inductionHypothesis =>
      cases readLists with
      | cons readHead readTail =>
          obtain ⟨headUsable, inHead⟩ := lists_iff_of_edgesOnLine readHead
          obtain ⟨tailUsable, inTail⟩ := inductionHypothesis _ readTail
          refine ⟨List.forall_mem_cons.mpr ⟨headUsable, tailUsable⟩, fun edge => ?_⟩
          rw [List.flatten_cons, List.mem_append, inHead, inTail]
          simp only [List.mem_cons, exists_eq_or_imp]

/-! ## All lines -/

/-- The draft of a header and of the edges behind it. -/
def headerDraft (header : Header) (edges : List Edge) : Draft :=
  .ofEdges header.size header.alphabetSize (.ofList header.initial) (.ofList header.accepting) edges

theorem readBody_eq_ok_iff {header : Header} {later : List String} {automaton : Automaton} :
    readBody header later = .ok automaton ↔
      ∃ edges, readEdges header (later.zipIdx firstTransitionLine) = .ok edges ∧
        automaton.toDraft = headerDraft header edges := by
  rw [readBody, bind_eq_ok_iff]
  apply exists_congr
  intro edges
  apply and_congr_right
  intro _
  have pruned : (headerDraft header edges).Pruned := Draft.pruned_ofEdges _ _ _ _ _
  rw [← Draft.build_eq_ok_iff pruned, headerDraft]
  dsimp only
  split
  · rename_i built found
    rw [found, pure_eq_ok_iff, Except.ok.injEq, eq_comm]
  · rename_i violation found
    rw [found]
    simp

variable {header : Header} {later : List String} {edges : List Edge} {automaton : Automaton}

theorem describes_of_toDraft (draft_eq : automaton.toDraft = headerDraft header edges)
    (listed : ∀ edge, edge ∈ edges ↔ ∃ content ∈ later, Lists content edge) :
    Describes header later automaton where
  size_eq := by
    rw [draft_eq]
    exact Draft.size_ofEdges
  alphabetSize_eq := by
    rw [draft_eq]
    exact Draft.alphabetSize_ofEdges
  mem_initial_iff := by
    intro state
    rw [draft_eq, ← StateSet.mem_ofList]
    exact iff_of_eq (congrArg (state ∈ ·) Draft.initial_ofEdges)
  mem_accepting_iff := by
    intro state
    rw [draft_eq, ← StateSet.mem_ofList]
    exact iff_of_eq (congrArg (state ∈ ·) Draft.accepting_ofEdges)
  successors_iff := by
    intro source symbol target
    rw [← Automaton.mem_targets_iff, draft_eq, ← listed]
    exact Draft.mem_targets_ofEdges

/-- What is read follows the grammar and is what the lines describe. -/
theorem follows_of_readLines {lines : List String} (read : readLines lines = .ok automaton) :
    ∃ header later, Follows lines header later ∧ Describes header later automaton := by
  rw [readLines, bind_eq_ok_iff] at read
  obtain ⟨⟨header, later⟩, readsHeader, readsBody⟩ := read
  obtain ⟨headerLines, initial_lt, accepting_lt⟩ := readHeader_eq_ok_iff.mp readsHeader
  obtain ⟨edges, readsEdges, draft_eq⟩ := readBody_eq_ok_iff.mp readsBody
  obtain ⟨usable, listed⟩ := lists_iff_of_readEdges readsEdges
  have describes := describes_of_toDraft draft_eq listed
  have initial_nonempty : header.initial ≠ [] := by
    obtain ⟨state, isInitial⟩ := StateSet.ne_empty_iff.mp automaton.valid.initial_nonempty
    exact List.ne_nil_of_mem ((describes.mem_initial_iff state).mp isInitial)
  refine ⟨header, later, ?_, describes⟩
  exact {
    headerLines := headerLines
    size_pos := describes.size_eq ▸ automaton.valid.size_pos
    alphabetSize_pos := describes.alphabetSize_eq ▸ automaton.valid.alphabetSize_pos
    initial_nonempty := initial_nonempty
    initial_lt := initial_lt
    accepting_lt := accepting_lt
    usable := usable }

/-- A header in range with edges in range is a valid draft if there is something to start from. -/
theorem valid_headerDraft (size_pos : 1 ≤ header.size) (alphabetSize_pos : 1 ≤ header.alphabetSize)
    (initial_nonempty : header.initial ≠ [])
    (initial_lt : ∀ state ∈ header.initial, state < header.size)
    (accepting_lt : ∀ state ∈ header.accepting, state < header.size)
    (edge_lt : ∀ edge ∈ edges, edge.source < header.size ∧
      edge.symbol < header.alphabetSize ∧ edge.target < header.size) :
    (headerDraft header edges).Valid := by
  apply Draft.valid_ofEdges size_pos alphabetSize_pos _ _ _ edge_lt
  · obtain ⟨state, isInitial⟩ := List.exists_mem_of_ne_nil _ initial_nonempty
    exact StateSet.ne_empty_iff.mpr ⟨state, StateSet.mem_ofList.mpr isInitial⟩
  · intro state isInitial
    exact initial_lt state (StateSet.mem_ofList.mp isInitial)
  · intro state isAccepting
    exact accepting_lt state (StateSet.mem_ofList.mp isAccepting)

theorem valid_headerDraft_of_follows {lines : List String} (follows : Follows lines header later)
    (listed : ∀ edge ∈ edges, ∃ content ∈ later, Lists content edge) :
    (headerDraft header edges).Valid := by
  apply valid_headerDraft follows.size_pos follows.alphabetSize_pos follows.initial_nonempty
    follows.initial_lt follows.accepting_lt
  intro edge isListed
  obtain ⟨content, isLater, lists⟩ := listed edge isListed
  exact lists.inRange (follows.usable content isLater)

theorem exists_readLines {lines : List String} (follows : Follows lines header later) :
    readHeader lines = .ok (header, later) ∧ ∃ automaton, readLines lines = .ok automaton := by
  have readsHeader := readHeader_eq_ok_iff.mpr
    ⟨follows.headerLines, follows.initial_lt, follows.accepting_lt⟩
  obtain ⟨edges, readsEdges⟩ := exists_readEdges follows.usable firstTransitionLine
  have valid : (headerDraft header edges).Valid :=
    valid_headerDraft_of_follows follows fun edge isListed =>
      ((lists_iff_of_readEdges readsEdges).2 edge).mp isListed
  refine ⟨readsHeader, ⟨headerDraft header edges, valid⟩, ?_⟩
  rw [readLines, bind_eq_ok_iff]
  exact ⟨(header, later), readsHeader, readBody_eq_ok_iff.mpr ⟨edges, readsEdges, rfl⟩⟩

/-- The reader returns the automaton that the lines describe. -/
theorem readLines_of_describes {lines : List String} (follows : Follows lines header later)
    (describes : Describes header later automaton) : readLines lines = .ok automaton := by
  obtain ⟨readsHeader, built, read⟩ := exists_readLines follows
  obtain ⟨_, _, builtFollows, builtDescribes⟩ := follows_of_readLines read
  have sameHeader := Except.ok.inj ((exists_readLines builtFollows).1.symm.trans readsHeader)
  cases sameHeader
  rw [read, builtDescribes.unique describes]

/-- The reader accepts exactly the lines that follow the grammar, and returns exactly the
automaton that they describe. -/
theorem readLines_recognizes_grammar (lines : List String) :
    ((∃ automaton, readLines lines = .ok automaton) ↔ ∃ header later, Follows lines header later) ∧
      ∀ automaton, readLines lines = .ok automaton ↔
        ∃ header later, Follows lines header later ∧ Describes header later automaton := by
  refine ⟨⟨?_, ?_⟩, fun automaton => ⟨follows_of_readLines, ?_⟩⟩
  · intro ⟨automaton, read⟩
    obtain ⟨header, later, follows, _⟩ := follows_of_readLines read
    exact ⟨header, later, follows⟩
  · intro ⟨header, later, follows⟩
    exact (exists_readLines follows).2
  · intro ⟨header, later, follows, describes⟩
    exact readLines_of_describes follows describes

/-- Wide blanks, a plus sign, leading zeros, a repeated state, blank lines, and two lines for
one source and symbol. -/
example :
    (readLines ["\u00A0+2", "01", "0 1\u20030", "", "0 0 1", " ", "0 0 0"]).toOption.map lines =
      some ["2", "1", "0 1", "", "0 0 0 1"] := by
  decide +kernel

end Encoding

end Acceptors
