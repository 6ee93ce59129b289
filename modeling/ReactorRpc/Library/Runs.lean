import Mathlib.Data.Finset.Card
import Mathlib.Logic.Relation

namespace Streams
universe u v
variable {S : Type u} {L : Type v}

/-- One step of a labelled transition system, whatever its label. -/
def Moves (Step : S → L → S → Prop) (s t : S) : Prop := ∃ label, Step s label t

/-- A run of any number of steps. -/
abbrev Runs (Step : S → L → S → Prop) : S → S → Prop := Relation.ReflTransGen (Moves Step)

variable {Step : S → L → S → Prop}

theorem Runs.one {s t : S} {label : L} (step : Step s label t) : Runs Step s t := .single ⟨label, step⟩

/-- What each step preserves, a run preserves. -/
theorem Runs.invariant {P : S → Prop} (preserved : ∀ s label t, P s → Step s label t → P t)
    {s t : S} (run : Runs Step s t) (start : P s) : P t := by
  induction run with
  | refl => exact start
  | tail _ step ih =>
    obtain ⟨label, step⟩ := step
    exact preserved _ label _ ih step

/-- The steps of a system that are allowed in the state they start from. -/
def Restricted (allowed : S → L → Prop) (Step : S → L → S → Prop) (s : S) (label : L) (t : S) : Prop :=
  allowed s label ∧ Step s label t

/-- What each allowed step preserves, a run of allowed steps preserves. -/
theorem Runs.kept {allowed : S → L → Prop} {P : S → Prop}
    (preserved : ∀ s label t, P s → allowed s label → Step s label t → P t)
    {s t : S} (run : Runs (Restricted allowed Step) s t) (start : P s) : P t :=
  run.invariant (fun s label t here step => preserved s label t here step.1 step.2) start

theorem Runs.allow {allowed : S → L → Prop} {s t u : S} {label : L}
    (run : Runs (Restricted allowed Step) s t) (step : Step t label u) (permitted : allowed t label) :
    Runs (Restricted allowed Step) s u :=
  run.tail ⟨label, permitted, step⟩

/-- Where no step makes more work, no more steps take work off than there is. -/
theorem busy_le {work : S → Nat} {path : Nat → S} {n : Nat}
    (never : ∀ k, k < n → work (path (k + 1)) ≤ work (path k)) (busy : Finset Nat)
    (less : ∀ k ∈ busy, k < n ∧ work (path (k + 1)) < work (path k)) :
    busy.card + work (path n) ≤ work (path 0) := by
  induction n generalizing busy with
  | zero =>
    have none : busy = ∅ := Finset.eq_empty_of_forall_notMem fun k there => Nat.not_lt_zero k (less k there).1
    rw [none, Finset.card_empty, Nat.zero_add]
  | succ n ih =>
    have before : ∀ k ∈ busy.erase n, k < n ∧ work (path (k + 1)) < work (path k) := by
      intro k there
      obtain ⟨other, inside⟩ := Finset.mem_erase.mp there
      obtain ⟨within, falls⟩ := less k inside
      exact ⟨by omega, falls⟩
    have rest := ih (fun k within => never k (Nat.lt_succ_of_lt within)) (busy.erase n) before
    have last := never n (Nat.lt_succ_self n)
    by_cases there : n ∈ busy
    · have falls := (less n there).2
      have one := Finset.card_erase_add_one there
      omega
    · rw [Finset.erase_eq_of_notMem there] at rest
      omega

/-- Where a state with work left can go on to one with less, each state can go on to one with none. -/
theorem Runs.finishes {P : S → Prop} (work : S → Nat)
    (preserved : ∀ s label t, P s → Step s label t → P t)
    (progress : ∀ s, P s → work s ≠ 0 → ∃ t, Runs Step s t ∧ work t < work s) {s : S} (start : P s) :
    ∃ t, Runs Step s t ∧ P t ∧ work t = 0 := by
  induction size : work s using Nat.strongRecOn generalizing s with
  | ind n ih =>
    by_cases done : work s = 0
    · exact ⟨s, .refl, start, done⟩
    · obtain ⟨t, run, less⟩ := progress s start done
      obtain ⟨u, later, kept, empty⟩ := ih (work t) (size ▸ less) (run.invariant preserved start) rfl
      exact ⟨u, run.trans later, kept, empty⟩

end Streams
