import Mathlib.Data.List.Perm.Basic

/-!
# First Fit

Candidates wait in a list to be admitted, and whether one of them fits depends on what
is held already. A dispatch goes through the list once, admits what fits when its turn comes, and
keeps the others in their order.

What it admits is put in front of what is held, so that the list of the
holders is a record of the order of their admission.

`sweep_induction` is the rule for what is held. A property that an admission keeps is
kept by the whole dispatch. What is left waiting is said by `sweep_kept`, which needs that
nothing fits better because more is held.

## Main definitions

* `FirstFit.takeOut`: The first candidate of a kind, and the others.
* `FirstFit.sweep`: One dispatch.
* `FirstFit.Admissible`: What can be held together.

## Theorems

* `FirstFit.takeOut_spec`, `FirstFit.takeOut_eq_none_iff`: What is
  taken out.
* `FirstFit.sweep_perm`: Nobody is lost or admitted twice.
* `FirstFit.sweep_induction`: What admission keeps.
* `FirstFit.sweep_kept`: Who is left waiting.
* `FirstFit.admissible_sweep`: What a dispatch admits can be held together.
-/

namespace FirstFit

open List

variable {α : Type}

/-- The first entry with a property, and the others in their order. -/
def takeOut (p : α → Bool) : List α → Option (α × List α)
  | [] => none
  | x :: rest => if p x then some (x, rest) else (takeOut p rest).map fun r => (r.1, x :: r.2)

variable {p : α → Bool}

/-- What is taken out meets the test. -/
theorem takeOut_spec {l others : List α} {x : α}
    (h : takeOut p l = some (x, others)) :
    p x = true ∧ l.Perm (x :: others) ∧ others.Sublist l := by
  induction l generalizing others with
  | nil => cases h
  | cons y rest ih =>
    rw [takeOut] at h
    by_cases hy : p y = true
    · rw [if_pos hy, Option.some.injEq, Prod.mk.injEq] at h
      obtain ⟨rfl, rfl⟩ := h
      exact ⟨hy, Perm.refl _, sublist_cons_self _ _⟩
    · rw [if_neg hy, Option.map_eq_some_iff] at h
      obtain ⟨⟨z, left⟩, hrest, heq⟩ := h
      obtain ⟨rfl, rfl⟩ := Prod.mk.inj heq
      obtain ⟨hz, hperm, hsub⟩ := ih hrest
      exact ⟨hz, (hperm.cons y).trans (Perm.swap z y left), hsub.cons_cons y⟩

/-- Nothing is taken out if none does. -/
theorem takeOut_eq_none_iff {l : List α} : takeOut p l = none ↔ ∀ x ∈ l, p x = false := by
  induction l with
  | nil => simp [takeOut]
  | cons y rest ih =>
    rw [takeOut]
    by_cases hy : p y = true
    · simp [hy]
    · simp [hy, ih]

variable (fits : List α → α → Bool)

/-- Go through the list once and admit what fits. -/
def sweep : List α → List α → List α × List α
  | _, [] => ([], [])
  | held, x :: rest =>
    if fits held x then
      let (admitted, kept) := sweep (x :: held) rest
      (admitted ++ [x], kept)
    else
      let (admitted, kept) := sweep held rest
      (admitted, x :: kept)

variable {fits}

/-! ### The dispatch -/

/-- A sweep loses nobody. -/
theorem sweep_perm (held waiting : List α) :
    ((sweep fits held waiting).1 ++ (sweep fits held waiting).2).Perm waiting := by
  induction waiting generalizing held with
  | nil => exact Perm.refl _
  | cons x rest ih =>
    rw [sweep]
    by_cases hfits : fits held x = true
    · rw [if_pos hfits]
      simp only [append_assoc, singleton_append]
      exact perm_middle.trans ((ih (x :: held)).cons x)
    · rw [if_neg hfits]
      exact perm_middle.trans ((ih held).cons x)

/-- The induction rule for a sweep. -/
theorem sweep_induction {P : List α → Prop}
    (hstep : ∀ held x, P held → fits held x = true → P (x :: held)) {held : List α}
    (waiting : List α) (h : P held) : P ((sweep fits held waiting).1 ++ held) := by
  induction waiting generalizing held with
  | nil => exact h
  | cons x rest ih =>
    rw [sweep]
    by_cases hfits : fits held x = true
    · rw [if_pos hfits]
      simp only [append_assoc, singleton_append]
      exact ih (hstep held x h hfits)
    · rw [if_neg hfits]
      exact ih h

/-- When nothing fits better because more is held, whoever is kept does not fit in the
    end. -/
theorem sweep_kept (hanti : ∀ held x y, fits (y :: held) x = true → fits held x = true)
    (held waiting : List α) :
    ∀ x ∈ (sweep fits held waiting).2, fits ((sweep fits held waiting).1 ++ held) x = false := by
  induction waiting generalizing held with
  | nil => exact nofun
  | cons y rest ih =>
    rw [sweep]
    by_cases hfits : fits held y = true
    · rw [if_pos hfits]
      simp only [append_assoc, singleton_append]
      exact ih (y :: held)
    · rw [if_neg hfits]
      refine forall_mem_cons.mpr ⟨?_, ih held⟩
      -- what did not fit does not fit with more held
      refine sweep_induction (P := fun l => fits l y = false) ?_ rest
        (eq_false_of_ne_true hfits)
      intro l z hl _
      exact eq_false_of_ne_true fun hcon => by
        rw [hanti l y z hcon] at hl
        cases hl

/-! ### What can be held together -/

variable (fits) in
/-- Each fits beside those after it. -/
def Admissible : List α → Prop
  | [] => True
  | x :: held => fits held x = true ∧ Admissible held

/-- Who is let in by a sweep is admissible. -/
theorem admissible_sweep (waiting : List α) : Admissible fits (sweep fits [] waiting).1 := by
  have hheld : Admissible fits ((sweep fits [] waiting).1 ++ []) :=
    sweep_induction (fun held x h hfits => ⟨hfits, h⟩) waiting trivial
  rwa [append_nil] at hheld

/-- Other names for the candidates, under which the same ones fit. -/
theorem admissible_map {β : Type} {g : α → β} {fits' : List β → β → Bool} {P : α → Prop}
    (hfits : ∀ held x, P x → (∀ y ∈ held, P y) → fits' (held.map g) (g x) = fits held x)
    {l : List α} (hl : ∀ x ∈ l, P x) : Admissible fits' (l.map g) ↔ Admissible fits l := by
  induction l with
  | nil => exact Iff.rfl
  | cons x held ih =>
    obtain ⟨hx, hheld⟩ := forall_mem_cons.mp hl
    rw [map_cons, Admissible, Admissible, ih hheld, hfits held x hx hheld]

end FirstFit
