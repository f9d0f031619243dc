import Mathlib.Data.List.Basic

/-!
# Deltas

What one change added to a set and took from it, and what undoing it means. A
set is given by its membership test, so that two deltas can be undone in a
sequence without asking in which order its elements are listed.

Undoing is forced on the elements a delta touches and does nothing elsewhere.
Two deltas that touch nothing in common can be undone in either order, and a
delta in the middle of a stack can be undone first if none above it touches what
it touches.

## Main definitions

* `Delta.between`: The change from one list to another.
* `Delta.undo`, `Delta.unwind`: Undoing a change, and a stack of them.

## Theorems

* `Delta.undo_between`: Undoing a change gives back what was there before it.
* `Delta.undo_comm`: Changes that touch nothing in common commute.
* `Delta.unwind_middle`: A change can be undone before changes that touch nothing
  it touches.
-/

namespace Twinet

/-- What one change added, and what it removed. -/
structure Delta (α : Type) where
  added : List α
  removed : List α
deriving DecidableEq, Repr

namespace Delta

variable {α : Type} [DecidableEq α]

/-- The change from one list to another. -/
def between (before after : List α) : Delta α where
  added := after.filter (· ∉ before)
  removed := before.filter (· ∉ after)

/-- An element was added or removed. -/
def Touches (r : Delta α) (x : α) : Prop := x ∈ r.added ∨ x ∈ r.removed

instance (r : Delta α) (x : α) : Decidable (r.Touches x) :=
  inferInstanceAs (Decidable (_ ∨ _))

/-- Membership after a change is undone. -/
def undo (r : Delta α) (c : α → Bool) : α → Bool := fun x =>
  if x ∈ r.added then false else if x ∈ r.removed then true else c x

/-- Membership after a stack of changes is undone, the last first. -/
def unwind (rs : List (Delta α)) (c : α → Bool) : α → Bool := rs.foldr undo c

/-- No element is touched by both. -/
def Apart (r r' : Delta α) : Prop := ∀ x, r.Touches x → ¬ r'.Touches x

variable {r : Delta α}

theorem undo_of_not_touches {c : α → Bool} {x : α} (h : ¬ r.Touches x) : r.undo c x = c x := by
  rw [Touches, not_or] at h
  rw [undo, if_neg h.1, if_neg h.2]

theorem undo_of_touches {x : α} (h : r.Touches x) (c c' : α → Bool) : r.undo c x = r.undo c' x := by
  unfold undo
  by_cases ha : x ∈ r.added
  · rw [if_pos ha, if_pos ha]
  · rw [if_neg ha, if_neg ha, if_pos (h.resolve_left ha), if_pos (h.resolve_left ha)]

/-- Undoing a change gives back what was before. -/
theorem undo_between (before after : List α) :
    (between before after).undo (decide <| · ∈ after) = (decide <| · ∈ before) := by
  funext x
  simp only [undo, between, List.mem_filter, decide_eq_true_eq]
  by_cases hb : x ∈ before
  · by_cases ha : x ∈ after <;> simp [ha, hb]
  · by_cases ha : x ∈ after <;> simp [ha, hb]

/-- Changes apart from each other commute. -/
theorem undo_comm {r' : Delta α} (h : Apart r r') (c : α → Bool) :
    r.undo (r'.undo c) = r'.undo (r.undo c) := by
  funext x
  by_cases hr : r.Touches x
  · rw [undo_of_not_touches (h x hr), undo_of_touches hr _ c]
  · rw [undo_of_not_touches hr]
    by_cases hr' : r'.Touches x
    · exact undo_of_touches hr' _ _
    · rw [undo_of_not_touches hr', undo_of_not_touches hr', undo_of_not_touches hr]

/-- A change apart from the newer ones can go first. -/
theorem unwind_middle {newer : List (Delta α)} (older : List (Delta α))
    (h : ∀ r' ∈ newer, Apart r r') (c : α → Bool) :
    unwind (older ++ newer) (r.undo c) = unwind (older ++ r :: newer) c := by
  have hnewer : unwind newer (r.undo c) = r.undo (unwind newer c) := by
    induction newer with
    | nil => rfl
    | cons r' newer ih =>
      have hrest := ih fun r'' hr'' => h r'' (List.mem_cons_of_mem _ hr'')
      simp only [unwind, List.foldr_cons] at hrest ⊢
      rw [hrest, undo_comm (h r' List.mem_cons_self)]
  simp only [unwind, List.foldr_append, List.foldr_cons] at hnewer ⊢
  rw [hnewer]

end Delta

end Twinet
