import Acceptors.Proofs.Determinization

/-!
Contract: the order in which the discovery gives numbers.

Owns: the departures that lead to a numbered subset, the invariant that ties the numbers to
the departures followed so far, and the order of the numbers in the end.
Does not own: words that lead to subsets.

Departures are followed in their listing order, and a subset gets its number when the first
departure that leads to it is followed. So of two subsets found on the way, the one with the
smaller number has the earlier first departure.
-/

namespace Acceptors

namespace Discovery

variable {automaton : Automaton} {discovery : Discovery automaton}

/-- The departure starts from a numbered subset, and the subset is the image there. -/
def Leads (discovery : Discovery automaton) (departure : Departure) (subset : StateSet) : Prop :=
  departure.symbol < automaton.alphabetSize ∧
    ∃ source, discovery.subsets.key? departure.source = some source ∧
      automaton.image source departure.symbol = subset

theorem Leads.unique {departure : Departure} {first second : StateSet}
    (leads : discovery.Leads departure first) (alsoLeads : discovery.Leads departure second) :
    first = second := by
  obtain ⟨_, source, found, image⟩ := leads
  obtain ⟨_, other, otherFound, otherImage⟩ := alsoLeads
  rw [found] at otherFound
  cases otherFound
  exact image.symm.trans otherImage

theorem Leads.source_lt {departure : Departure} {subset : StateSet}
    (leads : discovery.Leads departure subset) : departure.source < discovery.subsets.size := by
  obtain ⟨_, _, found, _⟩ := leads
  exact Numbering.lt_size_of_key? found

theorem leads_of_extends {later : Discovery automaton} (extension : later.Extends discovery)
    {departure : Departure} {subset : StateSet} (leads : discovery.Leads departure subset) :
    later.Leads departure subset := by
  obtain ⟨inAlphabet, source, found, image⟩ := leads
  exact ⟨inAlphabet, source, extension _ _ found, image⟩

/-- A number that was in use still starts from the same subset. -/
theorem leads_iff_of_extends {later : Discovery automaton} (extension : later.Extends discovery)
    {departure : Departure} (inside : departure.source < discovery.subsets.size)
    {subset : StateSet} :
    later.Leads departure subset ↔ discovery.Leads departure subset := by
  refine ⟨fun leads => ?_, leads_of_extends extension⟩
  obtain ⟨inAlphabet, source, found, image⟩ := leads
  obtain ⟨other, otherFound⟩ := Numbering.exists_key?_of_lt inside
  have same := extension _ _ otherFound
  rw [found] at same
  cases same
  exact ⟨inAlphabet, source, otherFound, image⟩

/-! ## One symbol -/

/-- Following a symbol leaves all as it is, or gives the next number to the image. -/
theorem visit_cases (discovery : Discovery automaton) (subset : StateSet) (symbol : Nat) :
    discovery.visit subset symbol = discovery ∧
        (automaton.image subset symbol ≠ ∅ → discovery.Lists (automaton.image subset symbol)) ∨
      automaton.image subset symbol ≠ ∅ ∧ ¬discovery.Lists (automaton.image subset symbol) ∧
        ∀ number, (discovery.visit subset symbol).subsets.key? number =
          if number = discovery.subsets.size then some (automaton.image subset symbol)
          else discovery.subsets.key? number := by
  unfold visit
  split
  · rename_i nothing
    exact Or.inl ⟨rfl, fun nonempty => absurd (StateSet.isEmpty_iff.mp nothing) nonempty⟩
  · rename_i something
    cases known : discovery.subsets.number? (automaton.image subset symbol) with
    | some number =>
        left
        refine ⟨?_, fun _ => Numbering.mem_of_key? (Numbering.number?_eq_some_iff.mp known)⟩
        cases discovery
        simp only [Discovery.mk.injEq]
        exact Numbering.insert_of_number? known
    | none =>
        right
        exact ⟨fun nothing => something (StateSet.isEmpty_iff.mpr nothing),
          Numbering.number?_eq_none_iff.mp known, Numbering.key?_insert_of_new known⟩

/-- The departures before `front` have been followed. -/
structure FollowedUpTo (discovery : Discovery automaton) (front : Departure) : Prop where
  /-- What they lead to is listed. -/
  lists : ∀ departure subset, departure.Precedes front → discovery.Leads departure subset →
    subset ≠ ∅ → discovery.Lists subset
  /-- They lead to all that is listed, apart from the initial set. -/
  found : ∀ number subset, 0 < number → discovery.subsets.key? number = some subset →
    ∃ departure : Departure, departure.Precedes front ∧ discovery.Leads departure subset
  /-- No departure to a subset comes before all departures to a subset with a smaller number. -/
  ordered : ∀ earlier later first second, 0 < earlier → earlier < later →
    discovery.subsets.key? earlier = some first → discovery.subsets.key? later = some second →
      ∀ departure : Departure, departure.Precedes front → discovery.Leads departure second →
        ∃ other : Departure, other.Precedes departure ∧ discovery.Leads other first

theorem followedUpTo_start (automaton : Automaton) :
    (start automaton).FollowedUpTo ⟨0, 0⟩ where
  lists := by
    intro departure subset before
    simp [Departure.Precedes] at before
  found := by
    intro number subset positive found
    have inside : number < 1 := Numbering.lt_size_of_key? found
    omega
  ordered := by
    intro earlier later first second _ _ _ _ departure before
    simp [Departure.Precedes] at before

namespace FollowedUpTo

section Visit

variable {source symbol : Nat} {image : StateSet}
  (followed : discovery.FollowedUpTo ⟨source, symbol⟩)
  (leads : discovery.Leads ⟨source, symbol⟩ image)

include followed leads

/-- A departure that leads to a listed subset, or nowhere, changes nothing. -/
theorem skip (known : image ≠ ∅ → discovery.Lists image) :
    discovery.FollowedUpTo ⟨source, symbol + 1⟩ where
  lists := by
    intro departure subset before subsetLeads nonempty
    rcases Departure.precedes_succ_iff.mp before with earlier | same
    · exact followed.lists departure subset earlier subsetLeads nonempty
    · have equal : subset = image := (same ▸ subsetLeads).unique leads
      exact equal ▸ known (equal ▸ nonempty)
  found := by
    intro number subset positive found
    obtain ⟨departure, before, subsetLeads⟩ := followed.found number subset positive found
    exact ⟨departure, Departure.precedes_succ_iff.mpr (Or.inl before), subsetLeads⟩
  ordered := by
    intro earlier later first second positive less firstFound secondFound departure before
      secondLeads
    rcases Departure.precedes_succ_iff.mp before with followedBefore | same
    · exact followed.ordered earlier later first second positive less firstFound secondFound
        departure followedBefore secondLeads
    · -- What has a number was found by a departure before this one.
      rw [same]
      exact followed.found earlier first positive firstFound

section Add

variable {later : Discovery automaton} (extension : later.Extends discovery)

include extension

omit followed in
/-- The departures before this one lead where they led before. -/
theorem leads_of_precedes {departure : Departure} {subset : StateSet}
    (before : departure.Precedes ⟨source, symbol⟩) (subsetLeads : later.Leads departure subset) :
    discovery.Leads departure subset := by
  have inside := leads.source_lt
  refine (leads_iff_of_extends extension ?_).mp subsetLeads
  simp only [Departure.Precedes] at before inside
  omega

variable (nonempty : image ≠ ∅) (new : ¬discovery.Lists image)
  (key?_eq : ∀ number, later.subsets.key? number =
    if number = discovery.subsets.size then some image else discovery.subsets.key? number)

include key?_eq nonempty new

/-- A departure that leads to a new subset gives the next number to it. -/
theorem add : later.FollowedUpTo ⟨source, symbol + 1⟩ where
  lists := by
    intro departure subset before subsetLeads someState
    rcases Departure.precedes_succ_iff.mp before with earlier | same
    · have led := leads_of_precedes leads extension earlier subsetLeads
      exact extension.lists (followed.lists departure subset earlier led someState)
    · have equal : subset = image :=
        (same ▸ subsetLeads).unique (leads_of_extends extension leads)
      have numbered : later.subsets.key? discovery.subsets.size = some image := by
        rw [key?_eq, if_pos rfl]
      exact equal ▸ Numbering.mem_of_key? numbered
  found := by
    intro number subset positive found
    rw [key?_eq] at found
    by_cases last : number = discovery.subsets.size
    · rw [if_pos last] at found
      cases found
      exact ⟨⟨source, symbol⟩, Departure.precedes_succ_iff.mpr (Or.inr rfl),
        leads_of_extends extension leads⟩
    · rw [if_neg last] at found
      obtain ⟨departure, before, subsetLeads⟩ := followed.found number subset positive found
      exact ⟨departure, Departure.precedes_succ_iff.mpr (Or.inl before),
        leads_of_extends extension subsetLeads⟩
  ordered := by
    intro number other first second positive less firstFound secondFound departure before
      secondLeads
    rw [key?_eq] at firstFound secondFound
    have below : number < discovery.subsets.size := by
      by_cases last : other = discovery.subsets.size
      · omega
      · rw [if_neg last] at secondFound
        have := Numbering.lt_size_of_key? secondFound
        omega
    rw [if_neg (Nat.ne_of_lt below)] at firstFound
    have earlier : ∃ other : Departure, other.Precedes departure ∧ discovery.Leads other first := by
      rcases Departure.precedes_succ_iff.mp before with followedBefore | same
      · have led := leads_of_precedes leads extension followedBefore secondLeads
        by_cases last : other = discovery.subsets.size
        · -- What was followed leads to listed subsets, but this one is new.
          rw [if_pos last] at secondFound
          cases secondFound
          exact absurd (followed.lists departure image followedBefore led nonempty) new
        · rw [if_neg last] at secondFound
          exact followed.ordered number other first second positive less firstFound secondFound
            departure followedBefore led
      · rw [same]
        exact followed.found number first positive firstFound
    obtain ⟨other, precedes, firstLeads⟩ := earlier
    exact ⟨other, precedes, leads_of_extends extension firstLeads⟩

end Add

end Visit

/-! ## All symbols and all subsets -/

variable {source : Nat} {subset : StateSet}

theorem visit {symbol : Nat} (followed : discovery.FollowedUpTo ⟨source, symbol⟩)
    (waiting : discovery.subsets.key? source = some subset)
    (inAlphabet : symbol < automaton.alphabetSize) :
    (discovery.visit subset symbol).FollowedUpTo ⟨source, symbol + 1⟩ := by
  have leads : discovery.Leads ⟨source, symbol⟩ (automaton.image subset symbol) :=
    ⟨inAlphabet, subset, waiting, rfl⟩
  rcases discovery.visit_cases subset symbol with ⟨same, known⟩ | ⟨nonempty, new, key?_eq⟩
  · rw [same]
    exact followed.skip leads known
  · exact followed.add leads (visit_extends subset symbol) nonempty new key?_eq

/-- After the last symbol of a subset come the symbols of the next one. -/
theorem nextRow (followed : discovery.FollowedUpTo ⟨source, automaton.alphabetSize⟩) :
    discovery.FollowedUpTo ⟨source + 1, 0⟩ := by
  have before (departure : Departure) (other : StateSet)
      (leads : discovery.Leads departure other) :
      departure.Precedes ⟨source + 1, 0⟩ ↔
        departure.Precedes ⟨source, automaton.alphabetSize⟩ := by
    have inAlphabet := leads.1
    simp only [Departure.Precedes]
    omega
  refine ⟨?_, ?_, ?_⟩
  · intro departure other precedes leads
    exact followed.lists departure other ((before departure other leads).mp precedes) leads
  · intro number other positive found
    obtain ⟨departure, precedes, leads⟩ := followed.found number other positive found
    exact ⟨departure, (before departure other leads).mpr precedes, leads⟩
  · intro earlier later first second positive less firstFound secondFound departure precedes leads
    exact followed.ordered earlier later first second positive less firstFound secondFound
      departure ((before departure second leads).mp precedes) leads

theorem expand (followed : discovery.FollowedUpTo ⟨source, 0⟩)
    (waiting : discovery.subsets.key? source = some subset) :
    (discovery.expand subset).FollowedUpTo ⟨source + 1, 0⟩ := by
  have folded (count : Nat) (inAlphabet : count ≤ automaton.alphabetSize) :
      ((List.range count).foldl (fun current symbol => current.visit subset symbol)
        discovery).FollowedUpTo ⟨source, count⟩ ∧
      ((List.range count).foldl (fun current symbol => current.visit subset symbol)
        discovery).subsets.key? source = some subset := by
    induction count with
    | zero => exact ⟨followed, waiting⟩
    | succ count inductionHypothesis =>
        obtain ⟨now, still⟩ := inductionHypothesis (by omega)
        rw [List.range_succ, List.foldl_append]
        exact ⟨now.visit still (by omega), visit_extends subset count source subset still⟩
  exact (folded automaton.alphabetSize (Nat.le_refl _)).1.nextRow

/-- The loop follows the departures from all subsets. -/
theorem complete {next : Nat} (followed : discovery.FollowedUpTo ⟨next, 0⟩) :
    ∃ last, (discovery.complete next).subsets.size ≤ last ∧
      (discovery.complete next).FollowedUpTo ⟨last, 0⟩ := by
  fun_induction Discovery.complete discovery next with
  | case1 discovery next waiting =>
      exact ⟨next, Array.getElem?_eq_none_iff.mp waiting, followed⟩
  | case2 discovery next subset waiting inductionHypothesis =>
      exact inductionHypothesis (followed.expand waiting)

end FollowedUpTo

end Discovery

namespace Automaton

variable {automaton : Automaton}

/-! ## The finished discovery -/

/-- All departures have been followed in the end. -/
theorem followed_reachableSubsets :
    ∃ front : Departure, automaton.reachableSubsets.FollowedUpTo front ∧
      ∀ departure subset, automaton.reachableSubsets.Leads departure subset →
        departure.Precedes front := by
  obtain ⟨last, enough, followed⟩ := (Discovery.followedUpTo_start automaton).complete
  refine ⟨⟨last, 0⟩, followed, ?_⟩
  intro departure subset leads
  exact Or.inl (Nat.lt_of_lt_of_le leads.source_lt enough)

/-- A departure to a numbered subset comes after a departure to each subset with a smaller
number, apart from the initial set. -/
theorem exists_leads_of_number_lt {earlier later : Nat} {first second : StateSet}
    (positive : 0 < earlier) (less : earlier < later)
    (firstFound : automaton.numberedSubsets.key? earlier = some first)
    (secondFound : automaton.numberedSubsets.key? later = some second)
    {departure : Departure} (leads : automaton.reachableSubsets.Leads departure second) :
    ∃ other : Departure, other.Precedes departure ∧
      automaton.reachableSubsets.Leads other first := by
  obtain ⟨front, followed, all⟩ := automaton.followed_reachableSubsets
  exact followed.ordered earlier later first second positive less firstFound secondFound
    departure (all departure second leads) leads

end Automaton

end Acceptors
