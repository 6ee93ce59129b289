import Mathlib.Data.Int.CardIntervalMod
import Mathlib.Data.List.NodupEquivFin

namespace Streams

/-- Consecutive numbers lead to different positions, and each position is taken the
same number of times, rounded down or up. -/
structure Fair (n : Nat) (positions : List Nat) : Prop where
  inside : ∀ p ∈ positions, p < n
  distinct : ∀ start, start + n ≤ positions.length → ((positions.drop start).take n).Nodup
  counts : ∀ p < n, positions.count p = positions.length / n ∨
    positions.count p = (positions.length + n - 1) / n

/-- Every run of consecutive numbers that is no longer than `n` has different remainders. -/
theorem window_nodup (n k start : Nat) : ((((List.range k).map (· % n)).drop start).take n).Nodup := by
  rw [List.nodup_iff_getElem?_ne_getElem?]
  intro i j before inside same
  rw [List.length_take, List.length_drop, List.length_map, List.length_range] at inside
  have value : ∀ m ≤ j, ((((List.range k).map (· % n)).drop start).take n)[m]? = some ((start + m) % n) := by
    intro m within
    rw [List.getElem?_take_of_lt (by omega), List.getElem?_drop, List.getElem?_map,
      List.getElem?_range (by omega), Option.map_some]
  rw [value i (Nat.le_of_lt before), value j le_rfl] at same
  have step := Nat.ModEq.add_left_cancel' start (show start + i ≡ start + j [MOD n] from Option.some.inj same)
  have less : j < n := by omega
  rw [Nat.ModEq, Nat.mod_eq_of_lt (before.trans less), Nat.mod_eq_of_lt less] at step
  omega

/-- How often a remainder occurs among the first `k` numbers. -/
theorem count_remainder {n p : Nat} (inside : p < n) (k : Nat) :
    ((List.range k).map (· % n)).count p = k / n + if p < k % n then 1 else 0 := by
  have counted : ((List.range k).map (· % n)).count p = k.count (· ≡ p [MOD n]) := by
    induction k with
    | zero => rfl
    | succ k ih =>
      rw [List.range_succ, List.map_append, List.count_append, ih, Nat.count_succ, List.map_singleton,
        List.count_singleton]
      simp only [Nat.ModEq, Nat.mod_eq_of_lt inside, beq_iff_eq]
  have positive : 0 < n := by omega
  rw [counted, Nat.count_modEq_card k positive, Nat.mod_eq_of_lt inside]

theorem fair_of_remainders {n : Nat} (positive : 0 < n) (k : Nat) : Fair n ((List.range k).map (· % n)) where
  inside p member := by
    obtain ⟨j, _, rfl⟩ := List.mem_map.mp member
    exact Nat.mod_lt j positive
  distinct start _ := window_nodup n k start
  counts p inside := by
    rw [count_remainder inside, List.length_map, List.length_range]
    split
    · rename_i more
      right
      have whole := Nat.div_add_mod k n
      have less := Nat.mod_lt k positive
      have up : k + n - 1 = k % n - 1 + n * (k / n + 1) := by
        rw [Nat.mul_add, Nat.mul_one]
        omega
      have none : (k % n - 1) / n = 0 := Nat.div_eq_of_lt (by omega)
      rw [up, Nat.add_mul_div_left _ _ positive, none, Nat.zero_add]
    · exact .inl rfl

/-- Two numbers with one remainder that lie close together are no fair choice. -/
theorem Fair.apart {n : Nat} {positions : List Nat} (fair : Fair n positions) {i j p : Nat} (before : i < j)
    (close : j < i + n) (long : n ≤ positions.length) (atI : positions[i]? = some p)
    (atJ : positions[j]? = some p) : False := by
  have bound := (List.getElem?_eq_some_iff.mp atJ).1
  -- a window of `n` that has both and does not reach beyond the end
  let start := min i (positions.length - n)
  have distinct := fair.distinct start (by omega)
  rw [List.nodup_iff_getElem?_ne_getElem?] at distinct
  have value : ∀ m, start ≤ m → m < start + n →
      ((positions.drop start).take n)[m - start]? = positions[m]? := by
    intro m above below
    rw [List.getElem?_take_of_lt (by omega), List.getElem?_drop, Nat.add_sub_of_le above]
  refine distinct (i - start) (j - start) (by omega) ?_ ?_
  · rw [List.length_take, List.length_drop]
    omega
  · rw [value i (by omega) (by omega), value j (by omega) (by omega), atI, atJ]

/-- The position that the `j`-th number of a counter with `w` values leads to. -/
theorem getElem?_wrapped {w n k j : Nat} (inside : j < k) :
    ((List.range k).map fun j => j % w % n)[j]? = some (j % w % n) := by
  rw [List.getElem?_map, List.getElem?_range inside, Option.map_some]

/-- Where the counter wraps, two numbers meet at the first position. -/
theorem not_fair_of_wrap {w n k : Nat} (some_ : 0 < w) (positive : 0 < n) (uneven : ¬n ∣ w) (wraps : w < k) :
    ¬Fair n ((List.range k).map fun j => j % w % n) := by
  intro fair
  have size : ((List.range k).map fun j => j % w % n).length = k := by
    rw [List.length_map, List.length_range]
  have zero : ((List.range k).map fun j => j % w % n)[0]? = some 0 := by
    rw [getElem?_wrapped (by omega), Nat.zero_mod, Nat.zero_mod]
  have wrapped : ((List.range k).map fun j => j % w % n)[w]? = some 0 := by
    rw [getElem?_wrapped wraps, Nat.mod_self, Nat.zero_mod]
  rcases Nat.lt_or_ge k n with short | long
  · obtain ⟨first, atFirst⟩ := List.getElem?_eq_some_iff.mp zero
    obtain ⟨second, atSecond⟩ := List.getElem?_eq_some_iff.mp wrapped
    have twice := List.duplicate_iff_two_le_count.mp
      (List.duplicate_iff_exists_distinct_get.mpr ⟨⟨0, first⟩, ⟨w, second⟩, some_, atFirst.symm, atSecond.symm⟩)
    have down : k / n = 0 := Nat.div_eq_of_lt short
    have up : (k + n - 1) / n = 1 := Nat.div_eq_of_lt_le (by omega) (by omega)
    have counts := fair.counts 0 positive
    rw [size, down, up] at counts
    omega
  · rcases Nat.lt_or_ge w n with large | small
    · exact fair.apart some_ (by omega) (by omega) zero wrapped
    · -- the last multiple of `n` in front of the wrap
      have rest : w % n ≠ 0 := fun none => uneven (Nat.dvd_of_mod_eq_zero none)
      have less := Nat.mod_lt w positive
      have whole := Nat.div_add_mod w n
      have below : n * (w / n) < w := by omega
      have multiple : ((List.range k).map fun j => j % w % n)[n * (w / n)]? = some 0 := by
        rw [getElem?_wrapped (below.trans wraps), Nat.mod_eq_of_lt below, Nat.mul_mod_right]
      exact fair.apart (by omega) (by omega) (by omega) multiple wrapped

theorem positions_fair_iff {w n k : Nat} (some_ : 0 < w) (positive : 0 < n) :
    Fair n ((List.range k).map fun j => j % w % n) ↔ n ∣ w ∨ k ≤ w := by
  constructor
  · intro fair
    by_contra neither
    obtain ⟨uneven, wraps⟩ := not_or.mp neither
    exact not_fair_of_wrap some_ positive uneven (Nat.lt_of_not_le wraps) fair
  · intro even
    have same : ((List.range k).map fun j => j % w % n) = (List.range k).map (· % n) := by
      refine List.map_congr_left fun j member => ?_
      rcases even with divides | short
      · exact Nat.mod_mod_of_dvd j divides
      · rw [Nat.mod_eq_of_lt ((List.mem_range.mp member).trans_le short)]
    rw [same]
    exact fair_of_remainders positive k

end Streams
