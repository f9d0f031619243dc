import Mathlib.Data.Finset.Card
import Mathlib.Data.List.Sort

/-!
# Probing

Items take values one after the other. Each has a list of values that it would take, in
the order in which it tries them, and takes the first that nobody has taken before it.

The result depends on the order of the items, so an allocator that is to give the same
answer to every caller sorts them first. What a caller then says is a set, and
`canonical_eq` is that nothing else of what it said is left.

## Main definitions

* `assign`: The loop over the items.
* `canonical`: The distinct members of a list in order.

## Theorems

* `Probing.assign_spec`: What was taken was free, and is taken once.
* `Probing.exists_assign`: An item with more candidates than there are takers is served.
* `Probing.canonical_eq`: A sorted list without duplicates is determined by its members.
-/

namespace Probing

open List

variable {α β : Type} [DecidableEq β] (candidates : α → List β)

/-- Give every item the first of its candidates that is not in use. The error names the
    first item that none is left for. -/
def assign : List β → List α → Except α (List (α × β))
  | _, [] => .ok []
  | used, x :: xs =>
    match (candidates x).find? (· ∉ used) with
    | none => .error x
    | some v =>
      match assign (v :: used) xs with
      | .ok rest => .ok ((x, v) :: rest)
      | .error y => .error y

variable {candidates} {used : List β} {xs : List α} {out : List (α × β)}

theorem assign_cons_ok {x : α} (h : assign candidates used (x :: xs) = .ok out) :
    ∃ v rest, v ∈ candidates x ∧ v ∉ used ∧ assign candidates (v :: used) xs = .ok rest ∧
      out = (x, v) :: rest := by
  rw [assign] at h
  cases hfind : (candidates x).find? (· ∉ used) with
  | none => simp only [hfind, reduceCtorEq] at h
  | some v =>
    simp only [hfind] at h
    cases hrest : assign candidates (v :: used) xs with
    | error y => simp only [hrest, reduceCtorEq] at h
    | ok rest =>
      rw [hrest, Except.ok.injEq] at h
      exact ⟨v, rest, mem_of_find?_eq_some hfind,
        by simpa using find?_some hfind, hrest, h.symm⟩

/-- What was taken was free, and is taken once. -/
theorem assign_spec (h : assign candidates used xs = .ok out) :
    out.map Prod.fst = xs ∧ (out.map Prod.snd).Nodup ∧
      ∀ p ∈ out, p.2 ∈ candidates p.1 ∧ p.2 ∉ used := by
  induction xs generalizing used out with
  | nil =>
    obtain rfl := Except.ok.inj h
    simp
  | cons x xs ih =>
    obtain ⟨v, rest, hv, hfree, hrest, rfl⟩ := assign_cons_ok h
    obtain ⟨hkeys, hnodup, hvals⟩ := ih hrest
    refine ⟨by rw [map_cons, hkeys], ?_, ?_⟩
    · refine nodup_cons.mpr ⟨fun hmem => ?_, hnodup⟩
      obtain ⟨p, hp, hpv⟩ := mem_map.mp hmem
      exact (hvals p hp).2 (hpv ▸ mem_cons_self)
    · rintro p (_ | ⟨_, hp⟩)
      · exact ⟨hv, hfree⟩
      · exact ⟨(hvals p hp).1, fun hmem => (hvals p hp).2 (mem_cons_of_mem _ hmem)⟩

/-- With candidates enough everyone is served. -/
theorem exists_assign (h : ∀ x ∈ xs, used.length + xs.length ≤ (candidates x).toFinset.card) :
    ∃ out, assign candidates used xs = .ok out := by
  induction xs generalizing used with
  | nil => exact ⟨[], rfl⟩
  | cons x xs ih =>
    have hx := h x mem_cons_self
    rw [length_cons] at hx
    -- fewer values are in use than the item has candidates
    obtain ⟨v, hv, hfree⟩ : ∃ v ∈ candidates x, v ∉ used := by
      by_contra hall
      push Not at hall
      have hsub : (candidates x).toFinset ⊆ used.toFinset := fun v hv =>
        mem_toFinset.mpr (hall v (mem_toFinset.mp hv))
      have hcard := (Finset.card_le_card hsub).trans used.toFinset_card_le
      omega
    rw [assign]
    cases hfind : (candidates x).find? (· ∉ used) with
    | none => simpa [hfree] using find?_eq_none.mp hfind v hv
    | some w =>
      obtain ⟨rest, hrest⟩ := @ih (w :: used) fun y hy => by
        have hy := h y (mem_cons_of_mem _ hy)
        rw [length_cons] at hy ⊢
        omega
      exact ⟨(x, w) :: rest, by simp only [hrest]⟩

/-- The distinct members of a list in ascending order. -/
def canonical {α : Type} [LinearOrder α] (xs : List α) : List α := xs.dedup.insertionSort (· ≤ ·)

theorem mem_canonical [LinearOrder α] {x : α} : x ∈ canonical xs ↔ x ∈ xs := by
  simp [canonical]

theorem nodup_canonical [LinearOrder α] (xs : List α) : (canonical xs).Nodup :=
  (perm_insertionSort _ _).nodup_iff.mpr xs.nodup_dedup

/-- A canonical list is determined by its members. -/
theorem canonical_eq [LinearOrder α] {ys : List α} (h : ∀ x, x ∈ xs ↔ x ∈ ys) :
    canonical xs = canonical ys := by
  refine Perm.eq_of_pairwise (fun _ _ _ _ => le_antisymm) (pairwise_insertionSort _ _)
    (pairwise_insertionSort _ _) ?_
  exact (perm_insertionSort _ _).trans
    (((perm_ext_iff_of_nodup xs.nodup_dedup ys.nodup_dedup).mpr fun x => by
      simpa using h x).trans (perm_insertionSort _ _).symm)

/-- What is assigned to the distinct members of a list. -/
theorem assign_canonical [LinearOrder α] (h : assign candidates [] (canonical xs) = .ok out) :
    (out.map Prod.fst).Nodup ∧ (∀ x, x ∈ out.map Prod.fst ↔ x ∈ xs) ∧
      (out.map Prod.snd).Nodup ∧ ∀ p ∈ out, p.2 ∈ candidates p.1 := by
  obtain ⟨hkeys, hvals, htaken⟩ := assign_spec h
  rw [hkeys]
  exact ⟨nodup_canonical xs, fun x => mem_canonical, hvals, fun p hp => (htaken p hp).1⟩

end Probing
