import Mathlib.Logic.Relation

namespace Streams
universe u v w
variable {A : Type u} {B : Type v} {X : Type w}

/-- The states of two systems that agree on the part they share. -/
structure Joint (f : A → X) (g : B → X) where
  left : A
  right : B
  agree : f left = g right

namespace Joint
variable {f : A → X} {g : B → X}

/-- A step of one of the systems, which leaves the shared part alone, or of both at once. -/
inductive Step (Left : A → A → Prop) (Right : B → B → Prop) : Joint f g → Joint f g → Prop
  | left {s t : Joint f g} (moved : Left s.left t.left) (still : t.right = s.right) : Step Left Right s t
  | right {s t : Joint f g} (moved : Right s.right t.right) (still : t.left = s.left) : Step Left Right s t
  | both {s t : Joint f g} (left : Left s.left t.left) (right : Right s.right t.right) : Step Left Right s t

variable {Left : A → A → Prop} {Right : B → B → Prop} {s t : Joint f g}

/-- The second system can take a step that leaves the shared part alone. -/
theorem Step.alone {b : B} (moved : Right s.right b) (still : g b = g s.right) :
    Step Left Right s ⟨s.left, b, s.agree.trans still.symm⟩ :=
  .right moved rfl

theorem Step.together {a : A} {b : B} (left : Left s.left a) (right : Right s.right b) (agree : f a = g b) :
    Step Left Right s ⟨a, b, agree⟩ :=
  .both left right

/-- A run of both is one of the first system, as that sees it. -/
theorem run_left (run : Relation.ReflTransGen (Step Left Right) s t) :
    Relation.ReflTransGen Left s.left t.left := by
  induction run with
  | refl => exact .refl
  | tail _ step ih =>
    cases step with
    | left moved _ => exact ih.tail moved
    | right _ still => exact still ▸ ih
    | both moved _ => exact ih.tail moved

theorem run_right (run : Relation.ReflTransGen (Step Left Right) s t) :
    Relation.ReflTransGen Right s.right t.right := by
  induction run with
  | refl => exact .refl
  | tail _ step ih =>
    cases step with
    | left _ still => exact still ▸ ih
    | right moved _ => exact ih.tail moved
    | both _ moved => exact ih.tail moved

theorem measure_grows {measure : A → Nat} (grows : ∀ a a', Left a a' → measure a ≤ measure a') {a b : A}
    (run : Relation.ReflTransGen Left a b) : measure a ≤ measure b := by
  induction run with
  | refl => exact Nat.le_refl _
  | tail _ step ih => exact Nat.le_trans ih (grows _ _ step)

/-- A run of the first system is one of both if the second one can take part in each of its
steps, when `put` is what it makes of the part that they share. It need not be able to where
a measure grows, if the run ends as it has started. -/
theorem follow (put : B → X → B) (shared : ∀ b x, g (put b x) = x) (same : ∀ b, put b (g b) = b)
    (again : ∀ b x y, put (put b x) y = put b y) {measure : A → Nat}
    (grows : ∀ a a', Left a a' → measure a ≤ measure a')
    (follows : ∀ a a' b, Left a a' → measure a' = measure a → f a = g b →
      Right b (put b (f a')) ∨ f a' = f a)
    {last : A} (run : Relation.ReflTransGen Left s.left last) (kept : measure last = measure s.left) :
    Relation.ReflTransGen (Step Left Right) s ⟨last, put s.right (f last), (shared _ _).symm⟩ := by
  induction run with
  | refl =>
    obtain ⟨left, right, agree⟩ := s
    simp only [agree, same]
    exact .refl
  | @tail here next run step ih =>
    have since := measure_grows grows run
    have more := grows here next step
    have reached := ih (by omega)
    refine reached.tail ?_
    rcases follows here next (put s.right (f here)) step (by omega) (shared _ _).symm with moved | still
    · rw [again] at moved
      exact .both step moved
    · exact .left step (congrArg (put s.right) still)

end Joint
end Streams
