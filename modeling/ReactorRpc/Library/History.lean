import Mathlib.Data.List.Induction

namespace Streams
universe u v
variable {S : Type u} {Op : Type v} {apply : S → Op → S} {P : S → Prop} {on off : Op → Prop}

/-- The last operation that concerns a property switches it on. -/
def LastOn (on off : Op → Prop) (ops : List Op) : Prop :=
  ∃ before op after, ops = before ++ op :: after ∧ on op ∧ ∀ later ∈ after, ¬on later ∧ ¬off later

theorem not_lastOn_nil : ¬LastOn on off [] := by
  rintro ⟨before, op, after, empty, _⟩
  exact List.append_ne_nil_of_right_ne_nil before (List.cons_ne_nil op after) empty.symm

theorem lastOn_snoc {ops : List Op} {op : Op} :
    LastOn on off (ops ++ [op]) ↔ on op ∨ LastOn on off ops ∧ ¬off op := by
  constructor
  · rintro ⟨before, switch, after, split, switched, quiet⟩
    rcases List.eq_nil_or_concat after with rfl | ⟨front, last, rfl⟩
    · obtain ⟨_, same⟩ := List.append_inj' split rfl
      cases same
      exact .inl switched
    · rw [List.concat_eq_append, ← List.cons_append, ← List.append_assoc] at split
      obtain ⟨whole, same⟩ := List.append_inj' split rfl
      cases same
      rw [List.concat_eq_append] at quiet
      exact .inr ⟨⟨before, switch, front, whole, switched,
        fun later member => quiet later (List.mem_append_left _ member)⟩,
        (quiet op (by simp)).2⟩
  · intro either
    by_cases switches : on op
    · exact ⟨ops, op, [], rfl, switches, by simp⟩
    · obtain ⟨⟨before, switch, after, rfl, switched, quiet⟩, stays⟩ := either.resolve_left switches
      refine ⟨before, switch, after ++ [op], by simp, switched, ?_⟩
      intro later member
      rcases List.mem_append.mp member with inside | here
      · exact quiet later inside
      · rw [List.mem_singleton.mp here]
        exact ⟨switches, stays⟩

/-- A property that each operation switches on, switches off or leaves holds
after a run from a state without it exactly when the last operation that
concerns it switches it on. -/
theorem foldl_iff_lastOn (step : ∀ s op, P (apply s op) ↔ on op ∨ P s ∧ ¬off op) {start : S}
    (clear : ¬P start) (ops : List Op) : P (ops.foldl apply start) ↔ LastOn on off ops := by
  induction ops using List.reverseRecOn with
  | nil => exact iff_of_false clear not_lastOn_nil
  | append_singleton ops op ih => rw [List.foldl_append, List.foldl_cons, List.foldl_nil, step, ih, lastOn_snoc]

/-- What each operation preserves, a run preserves. -/
theorem foldl_kept (kept : ∀ s op, P s → P (apply s op)) {start : S} (here : P start) (ops : List Op) :
    P (ops.foldl apply start) := by
  induction ops generalizing start with
  | nil => exact here
  | cons op ops ih => exact ih (kept start op here)

end Streams
