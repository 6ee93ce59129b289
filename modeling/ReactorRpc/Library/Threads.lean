import Mathlib.Algebra.BigOperators.Group.List.Basic
import Mathlib.Data.List.Perm.Basic
import Mathlib.Tactic.Abel

namespace Streams
universe u v
variable {α : Type u}

/-- The threads around the one at a place, whatever becomes of that one. -/
theorem threads_around {threads : List α} {i : Nat} {x : α} (here : threads[i]? = some x) :
    ∃ front back, threads = front ++ x :: back ∧
      (∀ y, threads.set i y = front ++ y :: back) ∧ threads.eraseIdx i = front ++ back := by
  obtain ⟨inside, rfl⟩ := List.getElem?_eq_some_iff.mp here
  refine ⟨threads.take i, threads.drop (i + 1), ?_, ?_, List.eraseIdx_eq_take_drop_succ threads i⟩
  · rw [← List.drop_eq_getElem_cons inside, List.take_append_drop]
  · intro y
    rw [List.set_eq_take_append_cons_drop, if_pos inside]

/-- The threads after one of them has been replaced. -/
theorem threads_set_iff {threads : List α} {i j : Nat} {x y z : α} (here : threads[i]? = some x) :
    (threads.set i y)[j]? = some z ↔ j = i ∧ z = y ∨ j ≠ i ∧ threads[j]? = some z := by
  obtain ⟨inside, _⟩ := List.getElem?_eq_some_iff.mp here
  by_cases same : j = i
  · subst j
    simp [inside, eq_comm]
  · simp [same, Ne.symm same]

theorem threads_set_self {threads : List α} {i : Nat} {x : α} (here : threads[i]? = some x) (y : α) :
    (threads.set i y)[i]? = some y :=
  (threads_set_iff here).mpr (.inl ⟨rfl, rfl⟩)

theorem threads_set_other {threads : List α} {i j : Nat} {z : α} (other : j ≠ i)
    (there : threads[j]? = some z) (y : α) : (threads.set i y)[j]? = some z := by
  rw [List.getElem?_set_ne other.symm, there]

theorem threads_append_iff {threads : List α} {i : Nat} {x y : α} :
    (threads ++ [x])[i]? = some y ↔ threads[i]? = some y ∨ i = threads.length ∧ y = x := by
  rcases Nat.lt_trichotomy i threads.length with before | last | behind
  · rw [List.getElem?_append_left before]
    exact ⟨.inl, fun found => found.resolve_right fun last => Nat.ne_of_lt before last.1⟩
  · subst last
    simp [eq_comm]
  · rw [List.getElem?_eq_none (by simp; omega), List.getElem?_eq_none (Nat.le_of_lt behind)]
    simp [Nat.ne_of_gt behind]

/-- What all threads have in hand together. -/
def gathered {M : Type v} [AddCommMonoid M] (hand : α → M) (threads : List α) : M :=
  (threads.map hand).sum

theorem gathered_around {M : Type v} [AddCommMonoid M] (hand : α → M) (front back : List α) (x : α) :
    gathered hand (front ++ x :: back) = hand x + gathered hand (front ++ back) := by
  simp only [gathered, List.map_append, List.map_cons, List.sum_append, List.sum_cons]
  abel

theorem gathered_idle {M : Type v} [AddCommMonoid M] {hand : α → M} {x : α} (idle : hand x = 0)
    (n : Nat) : gathered hand (List.replicate n x) = 0 := by
  simp only [gathered, List.map_replicate, List.sum_replicate, idle, nsmul_zero]

end Streams
