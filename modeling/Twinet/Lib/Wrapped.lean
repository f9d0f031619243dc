import Mathlib.Algebra.Group.Nat.Defs
import Mathlib.Algebra.Group.Nat.Defs
import Mathlib.Algebra.Ring.Int.Defs

/-!
# Sums That Wrap

Totals of machine integers of 64 bits. A running total wraps whenever it leaves the
range, but what is read in the end depends on the true total only, so nothing has
to be known of the totals on the way.

A bound that is checked on the wrapped total is a bound on the true one unless the
true total is too large for the range. `Wrapped.le_iff` is that statement: a total
that is too small wraps upwards, which does no harm.

## Theorems

* `Wrapped.toInt_foldl_add`: A wrapped total is the true one, wrapped.
* `Wrapped.le_iff`: When a bound on the wrapped total is one on the true total.
-/

namespace Wrapped

/-- A wrapped total is the true one, wrapped. -/
theorem toInt_foldl_add (xs : List Int64) (x : Int64) :
    (xs.foldl (· + ·) x).toInt = (x.toInt + (xs.map Int64.toInt).sum).bmod (2 ^ 64) := by
  induction xs generalizing x with
  | nil =>
    rw [List.foldl_nil, List.map_nil, List.sum_nil, Int.add_zero]
    exact (Int64.toInt_bmod x).symm
  | cons y xs ih =>
    rw [List.foldl_cons, ih, Int64.toInt_add, Int.bmod_add_bmod, List.map_cons, List.sum_cons,
      Int.add_assoc]

/-- A bound on the wrapped total is one on the true total exactly if the true total
    is not too large. -/
theorem le_iff {total bound : Int} (hlow : -2 ^ 63 ≤ bound) (hhigh : bound < 2 ^ 63)
    (h : total.bmod (2 ^ 64) ≤ bound) : total ≤ bound ↔ total < 2 ^ 63 := by
  constructor
  · intro hle
    omega
  · intro hlt
    by_cases hbelow : total < -2 ^ 63
    · omega
    · rwa [Int.bmod_eq_of_le_mul_two (by omega) (by omega)] at h

end Wrapped
