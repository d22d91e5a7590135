/-!
Contract: the places that transitions start from.

Owns: `Departure`, a state together with the symbol that is read from it, the
order in which departures are listed, and what an ordered list has in front of
an item.
Does not own: any bound on the two indices. An automaton states its own bounds.

Throughout, a state is named by its index and so is a symbol of the alphabet.
-/

namespace Acceptors

/-- A state together with the symbol that is read from it. -/
structure Departure where
  source : Nat
  symbol : Nat
deriving DecidableEq, Repr, Hashable

/-- What comes before an item of an ordered list stands in front of it. -/
theorem mem_of_precedes {α : Type} {precedes : α → α → Prop} {before after : List α}
    {item other : α} (asymmetric : ∀ {left right}, precedes left right → ¬precedes right left)
    (ordered : (before ++ item :: after).Pairwise precedes)
    (listed : other ∈ before ++ item :: after) (earlier : precedes other item) :
    other ∈ before := by
  have follows := (List.pairwise_cons.mp (List.pairwise_append.mp ordered).2.1).1
  rcases List.mem_append.mp listed with isBefore | isNotBefore
  · exact isBefore
  · rcases List.mem_cons.mp isNotBefore with rfl | isAfter
    · exact absurd earlier (asymmetric earlier)
    · exact absurd earlier (asymmetric (follows other isAfter))

namespace Departure

/-- Departures are listed by their source, and by their symbol within one source. -/
instance : Ord Departure :=
  ⟨compareLex (compareOn Departure.source) (compareOn Departure.symbol)⟩

instance : Std.TransOrd Departure :=
  inferInstanceAs (Std.TransCmp
    (compareLex (compareOn Departure.source) (compareOn Departure.symbol)))

instance : Std.LawfulEqOrd Departure where
  eq_of_compare {left right} same := by
    have parts := compareLex_eq_eq.mp same
    have sources : left.source = right.source :=
      Std.LawfulEqCmp.eq_of_compare parts.1
    have symbols : left.symbol = right.symbol :=
      Std.LawfulEqCmp.eq_of_compare parts.2
    cases left
    cases right
    simp_all

/-- The listing order, in terms of the two indices. -/
def Precedes (left right : Departure) : Prop :=
  left.source < right.source ∨ left.source = right.source ∧ left.symbol < right.symbol

theorem Precedes.asymm {left right : Departure} (precedes : left.Precedes right) :
    ¬right.Precedes left := by
  simp only [Precedes] at *
  omega

theorem compare_eq_lt_iff (left right : Departure) :
    compare left right = .lt ↔ left.Precedes right := by
  change (compareOn Departure.source left right).then
    (compareOn Departure.symbol left right) = .lt ↔ _
  simp [Precedes, Ordering.then_eq_lt, compareOn, Nat.compare_eq_lt]

/-- Before the next symbol of a state come its symbol and all that comes before it. -/
theorem precedes_succ_iff {departure : Departure} {source symbol : Nat} :
    departure.Precedes ⟨source, symbol + 1⟩ ↔
      departure.Precedes ⟨source, symbol⟩ ∨ departure = ⟨source, symbol⟩ := by
  obtain ⟨otherSource, otherSymbol⟩ := departure
  simp only [Precedes, Departure.mk.injEq]
  omega

end Departure

end Acceptors
