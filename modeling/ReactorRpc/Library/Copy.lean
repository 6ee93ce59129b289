import Mathlib.Data.List.Basic

namespace Streams
universe u
variable {α : Type u}

/-- Copy `data` over the elements of `xs` from index `d` on, first element first. -/
def copyInto (xs : List α) (d : Nat) : List α → List α
  | [] => xs
  | x :: data => copyInto (xs.set d x) (d + 1) data

/-- Copy `n` elements of `xs` from index `s` on to index `d` on inside the
same array, first element first, so that a later read sees the earlier writes. -/
def copyWithin (xs : List α) (s d : Nat) : Nat → List α
  | 0 => xs
  | n + 1 =>
    match xs[s]? with
    | none => xs
    | some x => copyWithin (xs.set d x) (s + 1) (d + 1) n

theorem set_take_drop {xs : List α} {d : Nat} (x : α) (inside : d < xs.length) :
    (xs.set d x).take (d + 1) = xs.take d ++ [x] := by
  rw [List.take_add_one, List.take_set_of_le (Nat.le_refl d), List.getElem?_set_self inside]
  rfl

theorem copyInto_eq (xs : List α) (d : Nat) (data : List α) (fits : d + data.length ≤ xs.length) :
    copyInto xs d data = xs.take d ++ data ++ xs.drop (d + data.length) := by
  induction data generalizing xs d with
  | nil => simp [copyInto]
  | cons x data ih =>
    simp only [List.length_cons] at fits
    have beyond : d < d + 1 + data.length := by omega
    rw [copyInto, ih _ _ (by rw [List.length_set]; omega), set_take_drop x (by omega),
      List.drop_set_of_lt beyond]
    simp only [List.length_cons, List.append_assoc, List.singleton_append]
    rw [Nat.add_right_comm, Nat.add_assoc]

@[simp] theorem copyInto_length (xs : List α) (d : Nat) (data : List α) :
    (copyInto xs d data).length = xs.length := by
  induction data generalizing xs d with
  | nil => rfl
  | cons x data ih => rw [copyInto, ih, List.length_set]

@[simp] theorem copyWithin_length (xs : List α) (s d n : Nat) :
    (copyWithin xs s d n).length = xs.length := by
  induction n generalizing xs s d with
  | zero => rfl
  | succ n ih =>
    unfold copyWithin
    split
    · rfl
    · rw [ih, List.length_set]

/-- Copying towards the front moves the elements as if they had been read
first: no write lands on an element that is still to be read. -/
theorem copyWithin_eq (xs : List α) (s d n : Nat) (down : d ≤ s) (fits : s + n ≤ xs.length) :
    copyWithin xs s d n = xs.take d ++ (xs.drop s).take n ++ xs.drop (d + n) := by
  induction n generalizing xs s d with
  | zero => simp [copyWithin]
  | succ n ih =>
    have inside : s < xs.length := by omega
    have first : xs.drop s = xs[s] :: xs.drop (s + 1) := List.drop_eq_getElem_cons inside
    have unread : d < s + 1 := by omega
    have beyond : d < d + 1 + n := by omega
    rw [copyWithin, List.getElem?_eq_getElem inside]
    dsimp only
    rw [ih _ _ _ (by omega) (by rw [List.length_set]; omega), set_take_drop _ (by omega),
      List.drop_set_of_lt unread, List.drop_set_of_lt beyond, first, List.take_succ_cons]
    simp only [List.append_assoc, List.cons_append, List.nil_append]
    rw [Nat.add_right_comm, Nat.add_assoc]

end Streams
