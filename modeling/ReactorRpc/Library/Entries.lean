import Mathlib.Logic.Function.Basic

namespace Streams
universe u v
variable {α : Type u} {β : Type v} [DecidableEq α] {table : α → Option β}

/-- The entries of a table after a value has been entered under a key. -/
theorem entered_iff {key k : α} {value v : β} :
    Function.update table key (some value) k = some v ↔
      k = key ∧ value = v ∨ k ≠ key ∧ table k = some v := by
  by_cases same : k = key
  · subst k
    simp
  · simp [same]

/-- The entries of a table after a key has been erased. -/
theorem erased_iff {key k : α} {v : β} :
    Function.update table key none k = some v ↔ k ≠ key ∧ table k = some v := by
  by_cases same : k = key
  · subst k
    simp
  · simp [same]

/-- A key is free after a value has been entered if it is another key and was free. -/
theorem entered_none_iff {key k : α} {value : β} :
    Function.update table key (some value) k = none ↔ k ≠ key ∧ table k = none := by
  by_cases same : k = key
  · subst k
    simp
  · simp [same]

end Streams
