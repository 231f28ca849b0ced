import Mathlib.Algebra.BigOperators.Group.List.Basic
import Mathlib.Algebra.GroupWithZero.Nat

/-!
# Rounding down piece by piece

A quantity that arrives in pieces is divided by `n`, and each piece is rounded down by
itself. What the pieces yield is what the whole would yield exactly when the remainders
that are thrown away make up less than one unit.
-/

namespace Floors

/-- What the pieces yield, each divided by `n` and rounded down. -/
def yield (n : Nat) (pieces : List Nat) : Nat :=
  (pieces.map (· / n)).sum

/-- The remainders thrown away. -/
def leftover (n : Nat) (pieces : List Nat) : Nat :=
  (pieces.map (· % n)).sum

@[simp] theorem yield_nil (n : Nat) : yield n [] = 0 := rfl

@[simp] theorem leftover_nil (n : Nat) : leftover n [] = 0 := rfl

theorem yield_cons (n x : Nat) (xs : List Nat) : yield n (x :: xs) = x / n + yield n xs := by
  simp [yield]

theorem leftover_cons (n x : Nat) (xs : List Nat) :
    leftover n (x :: xs) = x % n + leftover n xs := by
  simp [leftover]

/-- Nothing else is lost. -/
theorem mul_yield_add_leftover (n : Nat) (xs : List Nat) :
    n * yield n xs + leftover n xs = xs.sum := by
  induction xs with
  | nil => simp
  | cons x xs ih =>
    have hx := Nat.div_add_mod x n
    rw [yield_cons, leftover_cons, List.sum_cons, Nat.mul_add]
    omega

/-- The pieces yield as much as the whole when less than a unit is thrown away. -/
theorem yield_eq_iff {n : Nat} (hn : 0 < n) (xs : List Nat) :
    yield n xs = xs.sum / n ↔ leftover n xs < n := by
  rw [← mul_yield_add_leftover n xs, Nat.mul_add_div hn]
  constructor
  · intro h
    have hzero : leftover n xs / n = 0 := by omega
    exact (Nat.div_eq_zero_iff_lt hn).mp hzero
  · intro h
    rw [Nat.div_eq_of_lt h, Nat.add_zero]

end Floors
