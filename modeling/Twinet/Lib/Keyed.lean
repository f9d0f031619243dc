import Mathlib.Data.List.Nodup

/-!
# Loops That Write at Distinct Keys

A loop over a list of items, each of which has a key, that writes at the key of
its item only. As long as no key occurs twice, what it leaves at a key is what
the round for that key wrote there.

## Theorems

* `Keyed.foldl_of_not_mem`: What the loop leaves at the key of no item.
* `Keyed.foldl_of_mem`: What the loop leaves at the key of an item.
-/

namespace Keyed

open List

variable {σ α κ ν : Type} {r : σ → κ → ν} {g : α → κ} {step : σ → α → σ} {items : List α}

/-- The loop leaves a key alone that no item has. -/
theorem foldl_of_not_mem (hother : ∀ s x k, k ≠ g x → r (step s x) k = r s k) {k : κ}
    (h : k ∉ items.map g) (s : σ) : r (items.foldl step s) k = r s k := by
  refine foldlRecOn (motive := (r · k = r s k)) items step rfl fun s' hs x hx => ?_
  rw [hother s' x k fun heq => h (heq ▸ mem_map_of_mem hx), hs]

/-- The loop leaves at the key of an item what the round for the item wrote, if
    that depends on nothing but what was there before. -/
theorem foldl_of_mem (hother : ∀ s x k, k ≠ g x → r (step s x) k = r s k) {x : α}
    {v : ν} {s : σ} (h : (items.map g).Nodup) (hx : x ∈ items)
    (hself : ∀ s', r s' (g x) = r s (g x) → r (step s' x) (g x) = v) :
    r (items.foldl step s) (g x) = v := by
  obtain ⟨before, after, rfl⟩ := append_of_mem hx
  rw [map_append, map_cons, nodup_middle, nodup_cons, mem_append, not_or] at h
  rw [foldl_append, foldl_cons, foldl_of_not_mem hother h.1.2]
  exact hself _ (foldl_of_not_mem hother h.1.1 s)

end Keyed
