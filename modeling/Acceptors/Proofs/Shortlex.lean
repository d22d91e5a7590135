import Acceptors.Proofs.DiscoveryOrder
import Mathlib.Data.List.Induction
import Mathlib.Data.List.Shortlex

/-!
Contract: the numbers of the subsets follow the words that lead to them.

Owns: the order of words by length and then by symbols, the least word that leads to a
subset, and the order of the numbers in terms of the least words.
Does not own: the departures behind the numbers.

The least word to a subset is the least word to another one, extended by a symbol. A subset
with a smaller number has an earlier departure, and by induction on the length of the words
the earlier departure gives the smaller word.
-/

namespace Acceptors

namespace Word

/-- Shorter words come first, and words of one length are in lexicographic order. -/
abbrev Precedes : Word → Word → Prop := List.Shortlex (· < ·)

theorem Precedes.trans {first second third : Word} (lower : first.Precedes second)
    (upper : second.Precedes third) : first.Precedes third := by
  apply List.shortlex_def.mpr
  rcases List.shortlex_def.mp lower with shorter | ⟨firstLength, firstLess⟩
  · have bound : second.length ≤ third.length := by
      rcases List.shortlex_def.mp upper with longer | ⟨sameLength, _⟩ <;> omega
    exact Or.inl (Nat.lt_of_lt_of_le shorter bound)
  · rcases List.shortlex_def.mp upper with longer | ⟨secondLength, secondLess⟩
    · exact Or.inl (firstLength ▸ longer)
    · exact Or.inr ⟨firstLength.trans secondLength, List.lt_trans firstLess secondLess⟩

theorem eq_or_precedes_of_not_precedes {first second : Word} (not : ¬second.Precedes first) :
    second = first ∨ first.Precedes second := by
  by_cases before : first.Precedes second
  · exact Or.inr before
  · exact Or.inl (Std.Trichotomous.trichotomous second first not before)

/-- Symbols that differ decide the order of two words, whatever is appended to them. -/
theorem lex_append {first second : Word} (less : List.Lex (· < ·) first second)
    (sameLength : first.length = second.length) (left right : Word) :
    List.Lex (· < ·) (first ++ left) (second ++ right) := by
  induction less with
  | nil => cases sameLength
  | cons less inductionHypothesis =>
      exact List.Lex.cons (inductionHypothesis (Nat.succ.inj sameLength))
  | rel smaller => exact List.Lex.rel smaller

theorem Precedes.append_singleton {first second : Word} (less : first.Precedes second)
    (left right : Nat) : (first ++ [left]).Precedes (second ++ [right]) := by
  rcases List.shortlex_def.mp less with shorter | ⟨sameLength, smaller⟩
  · exact List.Shortlex.of_length_lt (by simp [shorter])
  · exact List.Shortlex.of_lex (by simp [sameLength]) (lex_append smaller sameLength _ _)

theorem append_singleton_precedes (word : Word) {left right : Nat} (less : left < right) :
    (word ++ [left]).Precedes (word ++ [right]) :=
  List.Shortlex.append_left ((List.shortlex_singleton_iff left right).mpr less) word

end Word

namespace Automaton

variable {automaton : Automaton}

/-! ## Least words -/

/-- The least word over the alphabet that leads from the initial states to the subset. -/
structure LeastWord (automaton : Automaton) (subset : StateSet) (word : Word) : Prop where
  overAlphabet : automaton.OverAlphabet word
  reached_eq : automaton.reached automaton.initial word = subset
  least : ∀ other : Word, automaton.OverAlphabet other →
    automaton.reached automaton.initial other = subset → other = word ∨ word.Precedes other

theorem exists_leastWord {word : Word} (overAlphabet : automaton.OverAlphabet word) :
    ∃ least, automaton.LeastWord (automaton.reached automaton.initial word) least := by
  obtain ⟨least, ⟨leastOver, leastReached⟩, minimal⟩ :=
    (List.Shortlex.wf Nat.lt_wfRel.wf).has_min
      (fun other : Word => automaton.OverAlphabet other ∧
        automaton.reached automaton.initial other = automaton.reached automaton.initial word)
      ⟨word, overAlphabet, rfl⟩
  refine ⟨least, leastOver, leastReached, ?_⟩
  intro other otherOver otherReached
  exact Word.eq_or_precedes_of_not_precedes (minimal other ⟨otherOver, otherReached⟩)

namespace LeastWord

variable {subset : StateSet} {word : Word}

theorem unique {other : Word} (least : automaton.LeastWord subset word)
    (alsoLeast : automaton.LeastWord subset other) : other = word := by
  rcases least.least other alsoLeast.overAlphabet alsoLeast.reached_eq with same | after
  · exact same
  · rcases alsoLeast.least word least.overAlphabet least.reached_eq with same | before
    · exact same.symm
    · exact absurd before (asymm after)

theorem initial_iff : automaton.LeastWord automaton.initial word ↔ word = [] := by
  have empty : automaton.LeastWord automaton.initial [] := by
    refine ⟨fun _ belongs => absurd belongs List.not_mem_nil, rfl, ?_⟩
    intro other _ _
    exact (List.shortlex_nil_or_eq_nil other).symm
  constructor
  · exact empty.unique
  · intro nothing
    exact nothing ▸ empty

/-- A least word without its last symbol is the least word to the subset before. -/
theorem of_append_singleton {symbol : Nat}
    (least : automaton.LeastWord subset (word ++ [symbol])) :
    automaton.LeastWord (automaton.reached automaton.initial word) word := by
  obtain ⟨wordOver, symbolOver⟩ := List.forall_mem_append.mp least.overAlphabet
  refine ⟨wordOver, rfl, ?_⟩
  intro other otherOver sameReached
  apply Word.eq_or_precedes_of_not_precedes
  intro smaller
  have otherReached : automaton.reached automaton.initial (other ++ [symbol]) = subset := by
    rw [← least.reached_eq, reached_append, reached_append, sameReached]
  have extended := smaller.append_singleton symbol symbol
  rcases least.least (other ++ [symbol]) (List.forall_mem_append.mpr ⟨otherOver, symbolOver⟩)
    otherReached with same | after
  · rw [same] at extended
    exact asymm extended extended
  · exact asymm extended after

end LeastWord

/-! ## Numbers and least words -/

theorem exists_leastWord_of_key? {number : Nat} {subset : StateSet}
    (found : automaton.numberedSubsets.key? number = some subset) :
    ∃ word, automaton.LeastWord subset word := by
  obtain ⟨_, word, overAlphabet, rfl⟩ :=
    lists_reachableSubsets_iff.mp (Numbering.mem_of_key? found)
  exact exists_leastWord overAlphabet

/-- The departure from which a least word takes its last step. -/
theorem exists_leads_of_append_singleton {subset : StateSet} {word : Word} {symbol : Nat}
    (nonempty : subset ≠ ∅)
    (reached : automaton.reached automaton.initial (word ++ [symbol]) = subset) :
    ∃ source, automaton.numberedSubsets.key? source =
        some (automaton.reached automaton.initial word) ∧
      automaton.reachableSubsets.Leads ⟨source, symbol⟩ subset := by
  have image : automaton.image (automaton.reached automaton.initial word) symbol = subset := by
    rw [← reached, reached_append]
    rfl
  have someState : automaton.reached automaton.initial word ≠ ∅ := by
    intro nothing
    rw [nothing, image_empty] at image
    exact nonempty image.symm
  obtain ⟨source, numbered⟩ := exists_number?_reached_iff.mpr someState
  have found := Numbering.number?_eq_some_iff.mp numbered
  have overAlphabet : automaton.OverAlphabet (word ++ [symbol]) :=
    overAlphabet_of_reached_ne_empty (reached ▸ nonempty)
  have inAlphabet : symbol < automaton.alphabetSize := overAlphabet symbol (by simp)
  exact ⟨source, found, inAlphabet, _, found, image⟩

/-- No departure to a subset gives a word to it that comes before its least word. -/
theorem LeastWord.eq_or_precedes_of_leads {source symbol : Nat} {subset other : StateSet}
    {word otherWord : Word} (least : automaton.LeastWord subset word)
    (leads : automaton.reachableSubsets.Leads ⟨source, symbol⟩ subset)
    (otherFound : automaton.numberedSubsets.key? source = some other)
    (otherLeast : automaton.LeastWord other otherWord) :
    otherWord ++ [symbol] = word ∨ word.Precedes (otherWord ++ [symbol]) := by
  obtain ⟨inAlphabet, found, foundHere, image⟩ := leads
  rw [otherFound] at foundHere
  cases foundHere
  apply least.least
  · exact List.forall_mem_append.mpr ⟨otherLeast.overAlphabet, by simpa using inAlphabet⟩
  · rw [reached_append, otherLeast.reached_eq]
    exact image

/-- A smaller number belongs to a smaller least word. -/
theorem leastWord_precedes_of_number_lt {earlier later : Nat} {first second : StateSet}
    {firstWord secondWord : Word} (less : earlier < later)
    (firstFound : automaton.numberedSubsets.key? earlier = some first)
    (secondFound : automaton.numberedSubsets.key? later = some second)
    (firstLeast : automaton.LeastWord first firstWord)
    (secondLeast : automaton.LeastWord second secondWord) : firstWord.Precedes secondWord := by
  induction secondWord using List.reverseRecOn
    generalizing earlier later first second firstWord with
  | nil =>
      -- The empty word leads to the initial set, whose number is zero.
      have zero : later = 0 :=
        (Numbering.number_eq_iff secondFound automaton.reachableSubsets.started).mpr
          secondLeast.reached_eq.symm
      omega
  | append_singleton word symbol inductionHypothesis =>
      rcases Nat.eq_zero_or_pos earlier with zero | positive
      · rw [zero, automaton.reachableSubsets.started] at firstFound
        cases firstFound
        rw [LeastWord.initial_iff.mp firstLeast]
        exact List.Shortlex.of_length_lt (by simp)
      · have nonempty : second ≠ ∅ :=
          ne_empty_of_number? (Numbering.number?_eq_some_iff.mpr secondFound)
        obtain ⟨source, sourceFound, leads⟩ :=
          exists_leads_of_append_singleton nonempty secondLeast.reached_eq
        obtain ⟨⟨otherSource, otherSymbol⟩, precedes, otherLeads⟩ :=
          exists_leads_of_number_lt positive less firstFound secondFound leads
        obtain ⟨other, otherFound⟩ := Numbering.exists_key?_of_lt otherLeads.source_lt
        obtain ⟨otherWord, otherLeast⟩ := exists_leastWord_of_key? otherFound
        have wordLeast := secondLeast.of_append_singleton
        have smaller : (otherWord ++ [otherSymbol]).Precedes (word ++ [symbol]) := by
          rcases precedes with lessSource | ⟨sameSource, lessSymbol⟩
          · exact (inductionHypothesis lessSource otherFound sourceFound otherLeast
              wordLeast).append_singleton _ _
          · rw [(Numbering.number_eq_iff otherFound sourceFound).mp sameSource] at otherLeast
            rw [wordLeast.unique otherLeast]
            exact Word.append_singleton_precedes word lessSymbol
        rcases firstLeast.eq_or_precedes_of_leads otherLeads otherFound otherLeast with same | after
        · exact same ▸ smaller
        · exact after.trans smaller

/-- Every subset that the construction numbers has one least word that leads to it, and the
subsets are numbered in the order of their least words. -/
theorem subsetConstruction_shortlex (automaton : Automaton) :
    (∀ subset, (∃ number, automaton.subsetConstruction.number? subset = some number) ↔
      subset ≠ ∅ ∧ ∃ word, automaton.OverAlphabet word ∧
        automaton.reached automaton.initial word = subset) ∧
    (∀ subset number, automaton.subsetConstruction.number? subset = some number →
      ∃! word, automaton.LeastWord subset word) ∧
    ∀ first second firstNumber secondNumber firstWord secondWord,
      automaton.subsetConstruction.number? first = some firstNumber →
      automaton.subsetConstruction.number? second = some secondNumber →
      automaton.LeastWord first firstWord → automaton.LeastWord second secondWord →
        (firstNumber < secondNumber ↔ firstWord.Precedes secondWord) := by
  refine ⟨?_, ?_, ?_⟩
  · intro subset
    rw [← lists_reachableSubsets_iff]
    constructor
    · intro ⟨number, numbered⟩
      exact Numbering.mem_of_key? (Numbering.number?_eq_some_iff.mp numbered)
    · exact Numbering.exists_number?_of_mem
  · intro subset number numbered
    obtain ⟨word, least⟩ := exists_leastWord_of_key? (Numbering.number?_eq_some_iff.mp numbered)
    exact ⟨word, least, fun other alsoLeast => least.unique alsoLeast⟩
  · intro first second firstNumber secondNumber firstWord secondWord firstNumbered secondNumbered
      firstLeast secondLeast
    have firstFound := Numbering.number?_eq_some_iff.mp firstNumbered
    have secondFound := Numbering.number?_eq_some_iff.mp secondNumbered
    constructor
    · intro less
      exact leastWord_precedes_of_number_lt less firstFound secondFound firstLeast secondLeast
    · intro precedes
      rcases Nat.lt_trichotomy firstNumber secondNumber with less | same | greater
      · exact less
      · rw [← (Numbering.number_eq_iff firstFound secondFound).mp same] at secondLeast
        rw [firstLeast.unique secondLeast] at precedes
        exact absurd precedes (asymm precedes)
      · exact absurd precedes (asymm (leastWord_precedes_of_number_lt greater secondFound
          firstFound secondLeast firstLeast))

end Automaton

end Acceptors
