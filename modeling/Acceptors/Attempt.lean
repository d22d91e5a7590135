/-!
Contract: computations that return a value or stop with an error.

Owns: when two computations in a row succeed and with which value, and what a fold of
successful steps keeps.
Does not own: which computations there are, and what their errors say.
-/

namespace Acceptors

section

variable {Error First Second : Type}

theorem bind_eq_ok_iff {first : Except Error First} {next : First → Except Error Second}
    {result : Second} :
    (first >>= next) = .ok result ↔ ∃ value, first = .ok value ∧ next value = .ok result := by
  cases first <;> simp [bind, Except.bind]

@[simp] theorem ok_bind (value : First) (next : First → Except Error Second) :
    ((Except.ok value : Except Error First) >>= next) = next value := rfl

@[simp] theorem error_bind (error : Error) (next : First → Except Error Second) :
    ((Except.error error : Except Error First) >>= next) = .error error := rfl

theorem pure_eq_ok_iff {value result : First} :
    (pure value : Except Error First) = .ok result ↔ result = value := by
  show Except.ok value = Except.ok result ↔ _
  rw [Except.ok.injEq, eq_comm]

theorem map_eq_ok_iff {first : Except Error First} {change : First → Second} {result : Second} :
    first.map change = .ok result ↔ ∃ value, first = .ok value ∧ result = change value := by
  cases first <;> simp [Except.map, eq_comm]

theorem toOption_eq_some_iff {first : Except Error First} {value : First} :
    first.toOption = some value ↔ first = .ok value := by
  cases first <;> simp [Except.toOption]

/-- Steps that succeed on all items give the list of their values. -/
theorem mapM_eq_ok {step : First → Except Error Second} {value : First → Second}
    {items : List First} (succeeds : ∀ item ∈ items, step item = .ok (value item)) :
    items.mapM step = .ok (items.map value) := by
  induction items with
  | nil => rfl
  | cons head tail inductionHypothesis =>
      have rest := inductionHypothesis fun item listed =>
        succeeds item (List.mem_cons_of_mem _ listed)
      rw [List.mapM_cons, succeeds head List.mem_cons_self, rest]
      rfl

/-- If all items fail alike, the first one stops the rest. -/
theorem mapM_eq_error {step : First → Except Error Second} {error : Error} {items : List First}
    (nonempty : items ≠ []) (fails : ∀ item ∈ items, step item = .error error) :
    items.mapM step = .error error := by
  obtain ⟨head, tail, rfl⟩ := List.exists_cons_of_ne_nil nonempty
  rw [List.mapM_cons, fails head List.mem_cons_self, error_bind]

/-- What every successful step keeps, a successful fold keeps. -/
theorem property_of_foldlM {step : Second → First → Except Error Second} {property : Second → Prop}
    (keeps : ∀ state item next, property state → step state item = .ok next → property next)
    {items : List First} {start final : Second} (holds : property start)
    (folded : items.foldlM step start = .ok final) : property final := by
  induction items generalizing start with
  | nil =>
      rw [List.foldlM_nil, pure_eq_ok_iff] at folded
      exact folded ▸ holds
  | cons head tail inductionHypothesis =>
      rw [List.foldlM_cons] at folded
      obtain ⟨next, stepped, rest⟩ := bind_eq_ok_iff.mp folded
      exact inductionHypothesis (keeps start head next holds stepped) rest

end

end Acceptors
