import Mathlib.Data.List.Basic

/-!
# Grace Periods

Observations made one after the other, each at a time, and things that each of
them sees or does not see. A thing is past its grace period when the last
observations reach back far enough and all of them see it.

What an observer keeps is usually less, namely when it first saw the thing.
`Grace.unbroken_iff` is what that leaves open: if something was observed long
enough ago, the thing is past its grace period unless an observation that does
not see it lies too close.

## Main definitions

* `Grace.First`: When a thing was first seen.
* `Grace.Unbroken`: A thing is past its grace period.
* `Grace.Interrupted`: A recent observation does not see it.

## Theorems

* `Grace.first_cons`: What one more observation changes.
* `Grace.unbroken_iff`: When a thing is past its grace period.
-/

namespace Grace

open List

variable {P K : Type} (seenAt : P → Nat) (sees : P → K → Prop)

/-- The time of the first observation that sees a thing. -/
def First (k : K) (h : List P) (t : Nat) : Prop :=
  ∃ a q c, h = a ++ q :: c ∧ seenAt q = t ∧ sees q k ∧ ∀ r ∈ a, ¬ sees r k

/-- There is an observation that is a grace period old, and it and all the later
    ones see the thing. -/
def Unbroken (grace now : Nat) (k : K) (h : List P) : Prop :=
  ∃ a q c, h = a ++ q :: c ∧ seenAt q + grace ≤ now ∧ ∀ r ∈ q :: c, sees r k

/-- There is an observation that does not see the thing, and all the later ones
    are less than a grace period old. -/
def Interrupted (grace now : Nat) (k : K) (h : List P) : Prop :=
  ∃ a g c, h = a ++ g :: c ∧ ¬ sees g k ∧ ∀ r ∈ c, now < seenAt r + grace

variable {seenAt sees} {h : List P}

theorem not_first_nil {k : K} {t : Nat} : ¬ First seenAt sees k [] t := by
  rintro ⟨a, q, c, h, -⟩
  simp at h

/-- One more observation, before the others, is the first if it sees the thing. -/
theorem first_cons {k : K} {p : P} {t : Nat} : First seenAt sees k (p :: h) t ↔
    (sees p k ∧ seenAt p = t) ∨ (¬ sees p k ∧ First seenAt sees k h t) := by
  constructor
  · rintro ⟨_ | ⟨x, a⟩, q, c, heq, rfl, hq, ha⟩
    · obtain ⟨rfl, -⟩ := cons.inj heq
      exact .inl ⟨hq, rfl⟩
    · obtain ⟨rfl, rfl⟩ := cons.inj heq
      obtain ⟨hp, ha⟩ := forall_mem_cons.mp ha
      exact .inr ⟨hp, a, q, c, rfl, rfl, hq, ha⟩
  · rintro (⟨hp, rfl⟩ | ⟨hp, a, q, c, rfl, rfl, hq, ha⟩)
    · exact ⟨[], p, h, rfl, rfl, hp, nofun⟩
    · exact ⟨p :: a, q, c, rfl, rfl, hq, forall_mem_cons.mpr ⟨hp, ha⟩⟩

theorem exists_last {p : P → Prop} [DecidablePred p] (hex : ∃ q ∈ h, p q) :
    ∃ a q c, h = a ++ q :: c ∧ p q ∧ ∀ r ∈ c, ¬ p r := by
  induction h with
  | nil => simp at hex
  | cons x h ih =>
    by_cases hrest : ∃ q ∈ h, p q
    · obtain ⟨a, q, c, rfl, hq, hc⟩ := ih hrest
      exact ⟨x :: a, q, c, rfl, hq, hc⟩
    · push Not at hrest
      obtain ⟨q, hmem, hq⟩ := hex
      rcases mem_cons.mp hmem with rfl | hmem
      · exact ⟨[], q, h, rfl, hq, hrest⟩
      · exact absurd hq (hrest q hmem)

/-- If something was observed a grace period ago, a thing is past its grace period
    exactly if no observation since then missed it. -/
theorem unbroken_iff {grace now : Nat} {k : K} (hlong : ∃ q ∈ h, seenAt q + grace ≤ now) :
    Unbroken seenAt sees grace now k h ↔ ¬ Interrupted seenAt sees grace now k h := by
  constructor
  · rintro ⟨a, q, c, rfl, hq, hsees⟩ ⟨a', g, c', heq, hg, hrecent⟩
    rcases append_eq_append_iff.mp heq with ⟨e, -, htail⟩ | ⟨e, -, htail⟩
    · -- the gap is among the observations that see the thing
      have hmem : g ∈ q :: c := by rw [htail]; simp
      exact hg (hsees g hmem)
    · cases e with
      | nil =>
        obtain ⟨rfl, -⟩ := cons.inj htail
        exact hg (hsees g (mem_cons_self ..))
      | cons x e =>
        -- the old observation is later than the gap
        obtain ⟨-, rfl⟩ := cons.inj htail
        exact absurd (hrecent q (by simp)) (by omega)
  · intro hgap
    obtain ⟨a, q, c, rfl, hq, hrecent⟩ := exists_last hlong
    refine ⟨a, q, c, rfl, hq, fun r hr => ?_⟩
    by_contra hmissed
    obtain ⟨e, f, hsplit⟩ := append_of_mem hr
    refine hgap ⟨a ++ e, r, f, by rw [hsplit, append_assoc], hmissed, fun r' hr' => ?_⟩
    have hmem : r' ∈ c := by
      cases e with
      | nil =>
        obtain ⟨-, rfl⟩ := cons.inj hsplit
        exact hr'
      | cons x e =>
        obtain ⟨-, rfl⟩ := cons.inj hsplit
        simp [hr']
    exact Nat.lt_of_not_le (hrecent r' hmem)

end Grace
