import Mathlib.Algebra.Order.BigOperators.Group.List
import Mathlib.Algebra.Order.Field.Basic

/-!
# Weighted Means

The mean of some scores, each with a weight. Nothing is assumed of the weights, so
their sum can be zero, and then the mean is taken to be zero.

With weights that are not negative the mean of scores between zero and one lies between
zero and one, and it rises with every score. `one_lt_mean` says that this is the only
way: one negative weight is enough for a mean above one, whatever the sum is.

## Main definitions

* `mean`: The weighted mean of the scores.
* `extreme`: The scores that make it largest.

## Theorems

* `Weighted.mean_nonneg`, `Weighted.mean_le_one`: The mean of scores in range.
* `Weighted.mean_mono`: The mean rises with the scores.
* `Weighted.one_lt_mean`: What a negative weight does.
-/

namespace Weighted

open List

variable {K : Type} [Field K] [LinearOrder K]

/-- The sum of the weights. -/
def weight (l : List (K × K)) : K := (l.map Prod.fst).sum

/-- The sum of the weighted scores. -/
def credit (l : List (K × K)) : K := (l.map fun p => p.1 * p.2).sum

/-- The weighted mean of the scores. -/
def mean (l : List (K × K)) : K := if weight l = 0 then 0 else credit l / weight l

variable [IsStrictOrderedRing K] {l l' : List (K × K)}

theorem weight_nonneg (h : ∀ p ∈ l, 0 ≤ p.1) : 0 ≤ weight l := by
  refine sum_nonneg fun w hw => ?_
  obtain ⟨p, hp, rfl⟩ := mem_map.mp hw
  exact h p hp

omit [IsStrictOrderedRing K] in
theorem mean_eq (l : List (K × K)) : mean l = credit l / weight l := by
  unfold mean
  split_ifs with hzero
  · rw [hzero, div_zero]
  · rfl

section

variable (hw : ∀ p ∈ l, 0 ≤ p.1)

include hw

theorem credit_nonneg (hs : ∀ p ∈ l, 0 ≤ p.2) : 0 ≤ credit l := by
  refine sum_nonneg fun c hc => ?_
  obtain ⟨p, hp, rfl⟩ := mem_map.mp hc
  exact mul_nonneg (hw p hp) (hs p hp)

theorem credit_le_weight (hs : ∀ p ∈ l, p.2 ≤ 1) : credit l ≤ weight l :=
  sum_le_sum fun p hp => mul_le_of_le_one_right (hw p hp) (hs p hp)

/-- The mean is not negative. -/
theorem mean_nonneg (hs : ∀ p ∈ l, 0 ≤ p.2) : 0 ≤ mean l := by
  rw [mean_eq]
  exact div_nonneg (credit_nonneg hw hs) (weight_nonneg hw)

/-- The mean is at most one. -/
theorem mean_le_one (hs : ∀ p ∈ l, p.2 ≤ 1) : mean l ≤ 1 := by
  rw [mean_eq]
  exact div_le_one_of_le₀ (credit_le_weight hw hs) (weight_nonneg hw)

end

omit [LinearOrder K] [IsStrictOrderedRing K] in
theorem weight_congr {R : K → K → Prop}
    (h : Forall₂ (fun p q : K × K => p.1 = q.1 ∧ R p.2 q.2) l l') :
    weight l = weight l' := by
  unfold weight
  induction h with
  | nil => rfl
  | cons hpq _ ih => rw [map_cons, map_cons, sum_cons, sum_cons, ih, hpq.1]

theorem credit_mono (h : Forall₂ (fun p q => p.1 = q.1 ∧ p.2 ≤ q.2) l l')
    (hw : ∀ p ∈ l, 0 ≤ p.1) : credit l ≤ credit l' := by
  unfold credit
  induction h with
  | nil => exact le_refl _
  | @cons p q _ _ hpq _ ih =>
    simp only [map_cons, sum_cons]
    have hfirst : p.1 * p.2 ≤ q.1 * q.2 := by
      rw [← hpq.1]
      exact mul_le_mul_of_nonneg_left hpq.2 (hw p mem_cons_self)
    exact add_le_add hfirst (ih fun r hr => hw r (mem_cons_of_mem p hr))

/-- The mean rises with the scores. -/
theorem mean_mono (h : Forall₂ (fun p q => p.1 = q.1 ∧ p.2 ≤ q.2) l l')
    (hw : ∀ p ∈ l, 0 ≤ p.1) : mean l ≤ mean l' := by
  rw [mean_eq, mean_eq, ← weight_congr h]
  exact div_le_div_of_nonneg_right (credit_mono h hw) (weight_nonneg hw)

/-- Full scores where the weight is not negative, and none elsewhere. -/
def extreme (ws : List K) : List (K × K) := ws.map fun w => (w, if 0 ≤ w then 1 else 0)

omit [IsStrictOrderedRing K] in
theorem weight_extreme (ws : List K) : weight (extreme ws) = ws.sum := by
  rw [weight, extreme, map_map]
  exact congrArg sum (map_id ws)

variable {ws : List K}

theorem lt_credit_extreme {w : K} (hmem : w ∈ ws) (hneg : w < 0) :
    ws.sum < credit (extreme ws) := by
  have hle : ∀ v ∈ ws, id v ≤ v * if 0 ≤ v then 1 else 0 := by
    intro v _
    split_ifs with hv
    · exact (mul_one v).ge
    · rw [mul_zero]
      exact (not_le.mp hv).le
  have hlt : id w < w * if 0 ≤ w then 1 else 0 := by
    rwa [if_neg (not_le.mpr hneg), mul_zero]
  rw [credit, extreme, map_map]
  calc ws.sum = (ws.map id).sum := by rw [map_id]
    _ < _ := sum_lt_sum id _ hle ⟨w, hmem, hlt⟩

/-- One negative weight makes a mean above one. -/
theorem one_lt_mean {w : K} (hsum : 0 < ws.sum) (hmem : w ∈ ws) (hneg : w < 0) :
    1 < mean (extreme ws) := by
  rw [mean_eq, weight_extreme, one_lt_div hsum]
  exact lt_credit_extreme hmem hneg

end Weighted
