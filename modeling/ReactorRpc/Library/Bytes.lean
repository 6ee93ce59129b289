import Mathlib.Data.List.Basic
import Mathlib.Tactic.Ring

namespace Streams

/-- A byte string, in memory order. -/
abbrev Bytes := List UInt8

/-- The `k` low bytes of a number, least significant byte first. -/
def leBytes : Nat → Nat → Bytes
  | 0, _ => []
  | k + 1, n => UInt8.ofNat n :: leBytes k (n / 256)

/-- The number a byte string stands for, least significant byte first. -/
def leNat : Bytes → Nat
  | [] => 0
  | b :: bs => b.toNat + 256 * leNat bs

/-- The `k` low bytes of a number, most significant byte first. -/
def beBytes (k n : Nat) : Bytes := (leBytes k n).reverse

/-- The number a byte string stands for, most significant byte first. -/
def beNat (bs : Bytes) : Nat := leNat bs.reverse

@[simp] theorem leBytes_length (k n : Nat) : (leBytes k n).length = k := by
  induction k generalizing n with
  | zero => rfl
  | succ k ih => simp [leBytes, ih]

@[simp] theorem beBytes_length (k n : Nat) : (beBytes k n).length = k := by
  simp [beBytes]

theorem leNat_leBytes (k n : Nat) : leNat (leBytes k n) = n % 256 ^ k := by
  induction k generalizing n with
  | zero => simp [leBytes, leNat, Nat.mod_one]
  | succ k ih =>
    have split : n % 256 ^ (k + 1) = n % 256 + 256 * (n / 256 % 256 ^ k) := by
      rw [Nat.pow_succ, Nat.mul_comm, Nat.mod_mul]
    simp only [leBytes, leNat, ih, UInt8.toNat_ofNat', split]

theorem leNat_lt (bs : Bytes) : leNat bs < 256 ^ bs.length := by
  induction bs with
  | nil => simp [leNat]
  | cons b bs ih =>
    have low := b.toNat_lt
    have power : 256 ^ (bs.length + 1) = 256 * 256 ^ bs.length := by ring
    simp only [leNat, List.length_cons, power]
    omega

theorem leBytes_leNat (bs : Bytes) : leBytes bs.length (leNat bs) = bs := by
  induction bs with
  | nil => rfl
  | cons b bs ih =>
    have low := b.toNat_lt
    have rest : (b.toNat + 256 * leNat bs) / 256 = leNat bs := by omega
    have head : UInt8.ofNat (b.toNat + 256 * leNat bs) = b := by
      apply UInt8.toNat_inj.mp
      rw [UInt8.toNat_ofNat']
      omega
    simp only [List.length_cons, leNat, leBytes, rest, head, ih]

/-- The low half of the bytes is the low half of the number. -/
theorem leBytes_append (a b n : Nat) :
    leBytes (a + b) n = leBytes a n ++ leBytes b (n / 256 ^ a) := by
  induction a generalizing n with
  | zero => simp [leBytes]
  | succ a ih =>
    have shift : n / 256 / 256 ^ a = n / 256 ^ (a + 1) := by
      rw [Nat.div_div_eq_div_mul, Nat.pow_succ, Nat.mul_comm]
    rw [Nat.add_right_comm]
    simp only [leBytes, ih, shift, List.cons_append]

theorem leBytes_mod (k n : Nat) : leBytes k (n % 256 ^ k) = leBytes k n := by
  have same := leBytes_leNat (leBytes k n)
  rwa [leBytes_length, leNat_leBytes] at same

theorem leBytes_congr {k m n : Nat} (same : m % 256 ^ k = n % 256 ^ k) :
    leBytes k m = leBytes k n := by
  rw [← leBytes_mod k m, same, leBytes_mod]

theorem beNat_beBytes (k n : Nat) : beNat (beBytes k n) = n % 256 ^ k := by
  simp [beNat, beBytes, leNat_leBytes]

theorem beBytes_beNat (bs : Bytes) : beBytes bs.length (beNat bs) = bs := by
  have same := leBytes_leNat bs.reverse
  rw [List.length_reverse] at same
  rw [beBytes, beNat, same, List.reverse_reverse]

theorem beNat_lt (bs : Bytes) : beNat bs < 256 ^ bs.length := by
  simpa only [beNat, List.length_reverse] using leNat_lt bs.reverse

end Streams
