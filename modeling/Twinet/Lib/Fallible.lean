import Mathlib.Data.List.Basic

/-!
# Computations That May Fail

What a computation with an error channel must have done once it has returned a
value: each part of it returned one.

## Theorems

* `exists_of_bind`: Both halves of a sequence.
* `foldlM_keeps`: What every round of a loop keeps, the loop keeps.
* `mem_mapM`: What a loop over a list has collected.
-/

namespace Fallible

open List

variable {α β σ ε : Type}

/-- Both halves of a sequence returned. -/
theorem exists_of_bind {x : Except ε α} {f : α → Except ε β} {b : β} (h : x.bind f = .ok b) :
    ∃ a, x = .ok a ∧ f a = .ok b := by
  cases x with
  | error err => cases h
  | ok a => exact ⟨a, rfl, h⟩

/-- What every round keeps, the loop keeps. -/
theorem foldlM_keeps {f : σ → α → Except ε σ} {P : σ → Prop}
    (hstep : ∀ st x st', P st → f st x = .ok st' → P st') {xs : List α} {st st' : σ} (h : P st)
    (hrun : xs.foldlM f st = .ok st') : P st' := by
  induction xs generalizing st with
  | nil =>
    cases hrun
    exact h
  | cons x xs ih =>
    rw [foldlM_cons] at hrun
    obtain ⟨st₁, hx, hrest⟩ := exists_of_bind hrun
    exact ih (hstep st x st₁ h hx) hrest

/-- A loop has collected the values of its list. -/
theorem mem_mapM {f : α → Except ε β} {l : List α} {l' : List β} (h : l.mapM f = .ok l') :
    (∀ a ∈ l, ∃ b, f a = .ok b) ∧ ∀ b, b ∈ l' ↔ ∃ a ∈ l, f a = .ok b := by
  induction l generalizing l' with
  | nil =>
    cases h
    simp
  | cons a l ih =>
    rw [mapM_cons] at h
    obtain ⟨b, hb, h⟩ := exists_of_bind h
    obtain ⟨rest, hrest, h⟩ := exists_of_bind h
    cases h
    obtain ⟨hall, hmem⟩ := ih hrest
    exact ⟨forall_mem_cons.mpr ⟨⟨b, hb⟩, hall⟩, by simp [hmem, hb, eq_comm]⟩

end Fallible
