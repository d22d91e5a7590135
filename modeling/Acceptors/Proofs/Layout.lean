import Acceptors.Proofs.FirstFault

/-!
Contract: transitions are read alike however they are laid out on lines.

Owns: when lines suit the counts in front of them and when they denote the same edges, and
the equality of what is read behind the same four lines.
Does not own: the edges on one line, and the lines that are refused.

The edges of all lines are folded into one map of target sets. The map is determined by its
targets, so it depends on which edges are listed and not on the order of the lines, on which
targets share a line, or on edges that are listed twice.
-/

namespace Acceptors

/-- A draft does not remember the order and the repetition of its edges. -/
theorem Draft.ofEdges_congr {size alphabetSize : Nat} {initial accepting : StateSet}
    {left right : List Edge} (same : ∀ edge, edge ∈ left ↔ edge ∈ right) :
    ofEdges size alphabetSize initial accepting left =
      ofEdges size alphabetSize initial accepting right := by
  apply ext_targets (pruned_ofEdges _ _ _ _ left) (pruned_ofEdges _ _ _ _ right)
  · rw [size_ofEdges, size_ofEdges]
  · rw [alphabetSize_ofEdges, alphabetSize_ofEdges]
  · rw [initial_ofEdges, initial_ofEdges]
  · rw [accepting_ofEdges, accepting_ofEdges]
  · intro source symbol
    ext target
    rw [mem_targets_ofEdges, mem_targets_ofEdges, same]

namespace Grammar

open Encoding (Header)

/-- The lines are blank or hold transitions in range of the two counts that are declared in
front of them. -/
def Suits (front later : List String) : Prop :=
  ∀ header : Header, Declares front 1 header.size → Declares front 2 header.alphabetSize →
    ∀ content ∈ later, Blank content ∨ HoldsTransitions header content

/-- The lines list the same sources, symbols and targets. -/
def DenoteAlike (left right : List String) : Prop :=
  ∀ edge, (∃ content ∈ left, Lists content edge) ↔ ∃ content ∈ right, Lists content edge

end Grammar

namespace Encoding

open Grammar

/-! ## Lines behind a header -/

section

variable {header : Header} {edges : List Edge} {line : Nat} {left right later : List String}

/-- Usable lines are read as the edges that they list. -/
theorem exists_resume_eq (edges : List Edge) (line : Nat)
    (usable : ∀ content ∈ later, Blank content ∨ HoldsTransitions header content) :
    ∃ more, (∀ edge, edge ∈ more ↔ ∃ content ∈ later, Lists content edge) ∧
      (Stage.headed header edges).resume line later =
        (Stage.headed header (edges ++ more)).finish := by
  obtain ⟨more, reads⟩ := exists_readEdges usable line
  refine ⟨more, (lists_iff_of_readEdges reads).2, ?_⟩
  rw [Stage.resume, foldlM_advance_headed, reads]
  rfl

/-- What is known at the end does not depend on the layout of the edges. -/
theorem finish_headed_congr {others : List Edge} (same : ∀ edge, edge ∈ edges ↔ edge ∈ others) :
    (Stage.headed header edges).finish = (Stage.headed header others).finish := by
  have sameDraft : headerDraft header edges = headerDraft header others :=
    Draft.ofEdges_congr same
  rw [Stage.finish, Stage.finish, sameDraft]

theorem resume_headed_congr
    (leftUsable : ∀ content ∈ left, Blank content ∨ HoldsTransitions header content)
    (rightUsable : ∀ content ∈ right, Blank content ∨ HoldsTransitions header content)
    (same : DenoteAlike left right) :
    (Stage.headed header edges).resume line left =
      (Stage.headed header edges).resume line right := by
  obtain ⟨leftMore, leftListed, leftRead⟩ := exists_resume_eq edges line leftUsable
  obtain ⟨rightMore, rightListed, rightRead⟩ := exists_resume_eq edges line rightUsable
  rw [leftRead, rightRead]
  apply finish_headed_congr
  intro edge
  rw [List.mem_append, List.mem_append, leftListed, rightListed, same edge]

/-- Behind usable lines, only the automaton as a whole can be refused. -/
theorem resume_headed_ok_or_invalid
    (usable : ∀ content ∈ later, Blank content ∨ HoldsTransitions header content) :
    (∃ automaton, (Stage.headed header edges).resume line later = .ok automaton) ∨
      ∃ violation, (Stage.headed header edges).resume line later =
        .error (.invalid violation) := by
  obtain ⟨more, _, read⟩ := exists_resume_eq edges line usable
  rw [read, Stage.finish]
  cases (headerDraft header (edges ++ more)).build with
  | ok automaton => exact Or.inl ⟨automaton, rfl⟩
  | error violation => exact Or.inr ⟨violation, rfl⟩

end

/-! ## All lines -/

section

variable {front left right : List String}

/-- Later lines are read from the stage to which the lines in front lead. -/
theorem readLines_append (front later : List String) :
    readLines (front ++ later) =
      readTo front front.length >>= fun stage => stage.resume (front.length + 1) later := by
  rw [readLines_eq_readTo, readTo, readTo, List.take_length, List.take_length, List.zipIdx_append,
    List.foldlM_append, bind_assoc, Nat.add_comm front.length 1]
  rfl

/-- Four lines lead to a header with the counts that they declare, or the first of them that
is malformed is refused. -/
theorem readTo_four_cases (four : front.length = 4) :
    (∃ header edges, readTo front front.length = .ok (.headed header edges) ∧
      Declares front 1 header.size ∧ Declares front 2 header.alphabetSize) ∨
    ∃ line error, readTo front front.length = .error error ∧ Malformed front line := by
  rcases readTo_reaches_or_refuses (Nat.le_refl front.length) with
    ⟨stage, read, reached, _⟩ | ⟨line, error, atMost, isFirst, refused, _⟩
  · left
    rw [four] at reached
    cases reached with
    | headed _ declaresSize declaresAlphabetSize =>
        exact ⟨_, _, read, declaresSize, declaresAlphabetSize⟩
  · exact Or.inr ⟨line, error, readTo_of_le refused atMost, isFirst.1⟩

/-- Behind the same four lines, transitions that denote the same edges are read alike. Where
none of the four is malformed, the result is an automaton or its refusal as a whole. -/
theorem readLines_eq_of_denoteAlike (four : front.length = 4) (leftSuits : Suits front left)
    (rightSuits : Suits front right) (same : DenoteAlike left right) :
    readLines (front ++ left) = readLines (front ++ right) ∧
      ((∀ line, ¬Malformed front line) →
        (∃ automaton, readLines (front ++ left) = .ok automaton) ∨
          ∃ violation, readLines (front ++ left) = .error (.invalid violation)) := by
  rw [readLines_append, readLines_append]
  rcases readTo_four_cases four with
    ⟨header, edges, read, declaresSize, declaresAlphabetSize⟩ | ⟨line, error, refused, malformed⟩
  · have leftUsable := leftSuits header declaresSize declaresAlphabetSize
    have rightUsable := rightSuits header declaresSize declaresAlphabetSize
    rw [read, ok_bind, ok_bind]
    exact ⟨resume_headed_congr leftUsable rightUsable same,
      fun _ => resume_headed_ok_or_invalid leftUsable⟩
  · rw [refused]
    exact ⟨rfl, fun faultless => absurd malformed (faultless line)⟩

/-- Lines that are read behind a header suit the lines that declare its counts. -/
theorem suits_of_readEdges {header : Header} {line : Nat} {later : List String}
    {edges : List Edge} (declaresSize : Declares front 1 header.size)
    (declaresAlphabetSize : Declares front 2 header.alphabetSize)
    (reads : readEdges header (later.zipIdx line) = .ok edges) : Suits front later := by
  intro other otherSize otherAlphabetSize content listed
  refine ((lists_iff_of_readEdges reads).1 content listed).imp_right fun holds => ?_
  rw [HoldsTransitions] at holds ⊢
  rwa [otherSize.unique declaresSize, otherAlphabetSize.unique declaresAlphabetSize]

/-- The header of three states and two symbols. -/
def threeStateHeader : List String := ["3", "2", "0", "2"]

/-- Two targets on one line. -/
def joinedTargets : List String := ["0 1 1 2", "1 0 2"]

/-- Every target on a line of its own, one of them twice, in another order and with a blank
line between. -/
def splitTargets : List String := ["1 0 2", "", "0 1 2", "0 1 1", "0 1 2"]

theorem readLines_splitTargets :
    threeStateHeader.length = 4 ∧ Suits threeStateHeader joinedTargets ∧
    Suits threeStateHeader splitTargets ∧ DenoteAlike joinedTargets splitTargets ∧
    readLines (threeStateHeader ++ joinedTargets) =
      readLines (threeStateHeader ++ splitTargets) := by
  have declaresSize : Declares threeStateHeader 1 3 :=
    ⟨"3", ⟨by decide, rfl⟩, numbers_eq_ok_iff.mp (by decide +kernel : numbers 1 "3" = .ok [3])⟩
  have declaresAlphabetSize : Declares threeStateHeader 2 2 :=
    ⟨"2", ⟨by decide, rfl⟩, numbers_eq_ok_iff.mp (by decide +kernel : numbers 2 "2" = .ok [2])⟩
  have joinedReads : readEdges ⟨3, 2, [0], [2]⟩ (joinedTargets.zipIdx firstTransitionLine) =
      .ok [⟨0, 1, 1⟩, ⟨0, 1, 2⟩, ⟨1, 0, 2⟩] := by
    decide +kernel
  have splitReads : readEdges ⟨3, 2, [0], [2]⟩ (splitTargets.zipIdx firstTransitionLine) =
      .ok [⟨1, 0, 2⟩, ⟨0, 1, 2⟩, ⟨0, 1, 1⟩, ⟨0, 1, 2⟩] := by
    decide +kernel
  have joinedWithin : [Edge.mk 0 1 1, ⟨0, 1, 2⟩, ⟨1, 0, 2⟩] ⊆
      [⟨1, 0, 2⟩, ⟨0, 1, 2⟩, ⟨0, 1, 1⟩, ⟨0, 1, 2⟩] := by
    decide
  have splitWithin : [Edge.mk 1 0 2, ⟨0, 1, 2⟩, ⟨0, 1, 1⟩, ⟨0, 1, 2⟩] ⊆
      [⟨0, 1, 1⟩, ⟨0, 1, 2⟩, ⟨1, 0, 2⟩] := by
    decide
  have joinedSuits := suits_of_readEdges declaresSize declaresAlphabetSize joinedReads
  have splitSuits := suits_of_readEdges declaresSize declaresAlphabetSize splitReads
  have same : DenoteAlike joinedTargets splitTargets := by
    intro edge
    rw [← (lists_iff_of_readEdges joinedReads).2, ← (lists_iff_of_readEdges splitReads).2]
    exact ⟨fun listed => joinedWithin listed, fun listed => splitWithin listed⟩
  exact ⟨rfl, joinedSuits, splitSuits, same,
    (readLines_eq_of_denoteAlike rfl joinedSuits splitSuits same).1⟩

end

end Encoding

end Acceptors
