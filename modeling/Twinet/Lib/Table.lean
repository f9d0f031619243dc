import Mathlib.Data.List.AList
import Twinet.Lib.Keyed

/-!
# Keyed Tables

Finite maps with the operations an imperative program performs on them in one
loop: visiting every entry and dropping or rewriting it, asking whether any
entry has a property, and folding one map into another entry by entry.

A table is Mathlib's `AList` at a constant value type, so keys are unique by
construction and point updates (`insert`, `erase`) come with their lookup
lemmas already. What is added here is stated the same way, by its effect on
`lookup`. That is the only view the proofs above take of a table: the order
in which entries are stored is an accident of the representation, just as the
iteration order of a hash map is.

## Main definitions

* `Table.filterMap`: Visit every entry.
* `Table.mergeWith`: Fold one table into another.

## Theorems

* `Table.lookup_filterMap`, `Table.lookup_drop`: A visit acts on each key separately.
* `Table.lookup_insert_eq_some`: What a key holds after one was written.
* `Table.lookup_mergeWith`: Folding a table in acts on each key separately.
* `Table.lookup_foldl_writes`: A loop that writes one key at a time.
-/

/-- A finite map with unique keys. -/
abbrev Table (κ ν : Type) := AList (fun _ : κ => ν)

namespace Table

open List Option

variable {κ ν μ : Type} (f : κ → ν → Option μ)

theorem nodupKeys_filterMap (l : List (Σ _ : κ, ν)) (h : l.NodupKeys) :
    (l.filterMap (fun e => (f e.1 e.2).map (Sigma.mk (β := fun _ : κ => μ) e.1))).NodupKeys := by
  have hsub : (l.filterMap (fun e =>
      (f e.1 e.2).map (Sigma.mk (β := fun _ : κ => μ) e.1))).keys.Sublist l.keys := by
    clear h
    induction l with
    | nil => exact Sublist.refl _
    | cons e l ih =>
      cases hf : f e.1 e.2 with
      | none =>
        simp only [filterMap_cons, hf, map_none, keys_cons]
        exact ih.cons _
      | some v =>
        simp only [filterMap_cons, hf, map_some, keys_cons]
        exact ih.cons_cons _
  exact hsub.nodup h

/-- Visit every entry: drop it where the function answers `none`, and
    otherwise keep it with the value the function gives. -/
def filterMap (f : κ → ν → Option μ) (t : Table κ ν) : Table κ μ :=
  ⟨t.entries.filterMap (fun e => (f e.1 e.2).map (Sigma.mk e.1)),
    nodupKeys_filterMap f t.entries t.nodupKeys⟩

/-- Whether some entry satisfies the test. -/
def any (p : κ → ν → Bool) (t : Table κ ν) : Bool :=
  t.entries.any (fun e => p e.1 e.2)

/-- The stored values, in storage order. -/
def values (t : Table κ ν) : List ν :=
  t.entries.map (fun e => e.2)

theorem any_filterMap {f : κ → ν → Option μ} {q : κ → μ → Bool} {t : Table κ ν} :
    (t.filterMap f).any q = t.any fun k v => (f k v).any (q k) := by
  simp only [filterMap, any, List.any_filterMap]
  congr 1
  funext e
  cases f e.1 e.2 <;> rfl

theorem mem_values_iff [DecidableEq ν] {t : Table κ ν} {v : ν} :
    v ∈ t.values ↔ t.any (fun _ w => w = v) = true := by
  simp [values, any]

section Lookup

variable [DecidableEq κ]

theorem mem_keys_iff {t : Table κ ν} {k : κ} : k ∈ t.keys ↔ (t.lookup k).isSome = true :=
  AList.mem_keys.symm.trans AList.lookup_isSome.symm

/-- A visit acts on each key separately. -/
@[simp]
theorem lookup_filterMap (t : Table κ ν) (k : κ) :
    (t.filterMap f).lookup k = (t.lookup k).bind (f k) := by
  rcases t with ⟨l, hl⟩
  simp only [filterMap, AList.lookup]
  induction l with
  | nil => rfl
  | cons e l ih =>
    rcases e with ⟨a, v⟩
    have hrest := ih (nodupKeys_cons.mp hl).2
    by_cases hka : k = a
    · subst hka
      rw [dlookup_cons_eq, bind_some]
      cases hf : f k v with
      | some w => simp [hf]
      | none =>
        -- The key was unique, so nothing further down answers for it.
        have hnone : dlookup k l = none :=
          dlookup_eq_none.mpr (nodupKeys_cons.mp hl).1
        simp only [filterMap_cons, hf, map_none]
        rw [hrest, hnone, bind_none]
    · rw [dlookup_cons_ne l ⟨a, v⟩ hka, ← hrest]
      cases hf : f a v with
      | none => simp [hf]
      | some w =>
        simp only [filterMap_cons, hf, map_some]
        exact dlookup_cons_ne _ (⟨a, w⟩ : Σ _ : κ, μ) hka

/-- What is left after some entries are dropped. -/
theorem lookup_drop {p : κ → ν → Prop} [∀ k v, Decidable (p k v)] {t : Table κ ν} {k : κ} {v : ν} :
    (t.filterMap fun k v => if p k v then none else some v).lookup k = some v ↔
      t.lookup k = some v ∧ ¬ p k v := by
  rw [lookup_filterMap, bind_eq_some_iff]
  constructor
  · rintro ⟨w, hlook, hkept⟩
    split_ifs at hkept with hp
    cases hkept
    exact ⟨hlook, hp⟩
  · rintro ⟨hlook, hp⟩
    exact ⟨v, hlook, if_neg hp⟩

theorem lookup_erase_eq_some {t : Table κ ν} {a k : κ} {v : ν} :
    (t.erase a).lookup k = some v ↔ k ≠ a ∧ t.lookup k = some v := by
  rcases eq_or_ne k a with rfl | hk
  · simp
  · simp [hk, AList.lookup_erase_ne hk]

/-- What a key holds after a write. -/
theorem lookup_insert_eq_some {t : Table κ ν} {a k : κ} {v w : ν} :
    (t.insert a v).lookup k = some w ↔ (k = a ∧ v = w) ∨ (k ≠ a ∧ t.lookup k = some w) := by
  rcases eq_or_ne k a with rfl | hk
  · simp
  · simp [hk, AList.lookup_insert_ne hk]

/-- Combine one entry with what its key held so far; `none` leaves the key as
    it was. -/
def upsert (f : κ → Option ν → μ → Option ν) (t : Table κ ν) (k : κ) (v : μ) : Table κ ν :=
  match f k (t.lookup k) v with
  | some w => t.insert k w
  | none => t

variable (f : κ → Option ν → μ → Option ν)

theorem lookup_upsert_self (t : Table κ ν) (k : κ) (v : μ) :
    (upsert f t k v).lookup k = (f k (t.lookup k) v).or (t.lookup k) := by
  unfold upsert
  cases f k (t.lookup k) v with
  | none => rw [none_or]
  | some w => rw [AList.lookup_insert, some_or]

theorem lookup_upsert_ne (t : Table κ ν) (a k : κ) (v : μ)
    (hka : k ≠ a) : (upsert f t a v).lookup k = t.lookup k := by
  unfold upsert
  cases f a (t.lookup a) v with
  | none => rfl
  | some w => exact AList.lookup_insert_ne hka

/-- Fold the entries of `u` into `t`, one `upsert` per entry. -/
def mergeWith (f : κ → Option ν → μ → Option ν) (t : Table κ ν) (u : Table κ μ) : Table κ ν :=
  u.foldl (upsert f) t

/-- A merge acts on each key separately. -/
@[simp]
theorem lookup_mergeWith (t : Table κ ν) (u : Table κ μ) (k : κ) : (mergeWith f t u).lookup k =
      ((u.lookup k).bind (f k (t.lookup k))).or (t.lookup k) := by
  have hother : ∀ (t : Table κ ν) (e : Σ _ : κ, μ) k, k ≠ e.1 →
      (upsert f t e.1 e.2).lookup k = t.lookup k := fun t e k => lookup_upsert_ne f t e.1 k e.2
  cases hk : u.lookup k with
  | none =>
    exact Keyed.foldl_of_not_mem (r := fun t k => t.lookup k) hother (AList.lookup_eq_none.mp hk) t
  | some v =>
    refine Keyed.foldl_of_mem (r := fun t k => AList.lookup k t) (x := ⟨k, v⟩) hother u.nodupKeys
      (of_mem_dlookup hk) fun t' ht => ?_
    rw [lookup_upsert_self, ht, bind_some]

/-- A loop over keys whose turns each write their own key, from what it holds, and
    write the same again on a second turn. -/
theorem lookup_foldl_writes {f : Table κ ν → κ → Table κ ν} (g : κ → Option ν → Option ν)
    (hself : ∀ t k, (f t k).lookup k = g k (t.lookup k))
    (hother : ∀ t k k', k' ≠ k → (f t k).lookup k' = t.lookup k')
    (hagain : ∀ k held, g k (g k held) = g k held) (keys : List κ) (t : Table κ ν) (k : κ) :
    (keys.foldl f t).lookup k = if k ∈ keys then g k (t.lookup k) else t.lookup k := by
  induction keys generalizing t with
  | nil => simp
  | cons a keys ih =>
    rw [foldl_cons, ih]
    by_cases hka : k = a
    · subst hka
      simp [hself, hagain]
    · simp [hka, hother t a k hka]

end Lookup

end Table
