import Mathlib.Data.List.Basic

/-!
# Machines With Observations

A deterministic machine that consumes one action at a time and emits the
observations that action makes visible. Nondeterminism of the environment is
carried by the action: an action says what was asked for and how every
fallible effect inside it turned out, so a run is a list of actions and a
property of every run is a property of every list.

`Machine.history_induction` is the rule all safety arguments go through. It
relates the state reached to everything observed on the way, which is what
lets an invariant speak about what was handed out earlier and is no longer
anywhere in the state.

## Main definitions

* `Machine.run`, `Machine.trace`: The state and the observations of a run.
* `Machine.Along`: Every step of a run meets a condition.

## Theorems

* `Machine.run_append`: Running a concatenation runs the halves in turn.
* `Machine.exists_step_of_trace`: The step that made an observation.
* `Machine.invariant_run`: A step invariant holds at the end of every run.
* `Machine.history_induction`: An invariant relating state and history.
* `Machine.invariant_along`: An invariant of a run whose steps meet a condition.
* `Machine.along_congr`: Two spellings of one condition.
* `Machine.always_iff_along`: A run is good at every point by its steps.
* `Machine.trace_along`: What a run observes whose steps meet a condition.
-/

/-- A deterministic machine: each action yields a successor state and the
    observations it makes. -/
structure Machine (S A O : Type) where
  step : S → A → S × List O

namespace Machine

open List

variable {S A O : Type} (m : Machine S A O)

/-- The state after a list of actions. -/
def run : S → List A → S
  | s, [] => s
  | s, a :: as => run (m.step s a).1 as

/-- Everything observed along a list of actions, oldest first. -/
def trace : S → List A → List O
  | _, [] => []
  | s, a :: as => (m.step s a).2 ++ trace (m.step s a).1 as

/-- The halves of a list run in turn. -/
theorem run_append (s : S) (as bs : List A) : m.run s (as ++ bs) = m.run (m.run s as) bs := by
  induction as generalizing s with
  | nil => rfl
  | cons a as ih => exact ih (m.step s a).1

variable {as : List A} {s : S}

/-- An observation was made by some step. -/
theorem exists_step_of_trace {before after : List O} {o : O}
    (h : m.trace s as = before ++ o :: after) :
    ∃ xs a ys l r, as = xs ++ a :: ys ∧ (m.step (m.run s xs) a).2 = l ++ o :: r ∧
      before = m.trace s xs ++ l := by
  induction as generalizing s before with
  | nil => simp [trace] at h
  | cons a as ih =>
    rw [trace] at h
    rcases append_eq_append_iff.mp h with ⟨mid, rfl, hrest⟩ | ⟨mid, hstep, hrest⟩
    · obtain ⟨xs, b, ys, l, r, rfl, hb, rfl⟩ := ih hrest
      exact ⟨a :: xs, b, ys, l, r, rfl, hb, by rw [trace, append_assoc]⟩
    · -- either the first step made it, or the first step made all that was before it
      cases mid with
      | nil =>
        obtain ⟨xs, b, ys, l, r, rfl, hb, hl⟩ :=
          ih (show m.trace _ as = [] ++ o :: after from hrest.symm)
        refine ⟨a :: xs, b, ys, l, r, rfl, hb, ?_⟩
        rw [trace, append_assoc, ← hl, hstep]
        simp
      | cons o' mid =>
        rw [cons_append, cons.injEq] at hrest
        exact ⟨[], a, as, before, mid, rfl, by rw [hrest.1]; exact hstep, rfl⟩

variable (I : S → Prop)

/-- What every step keeps, a run keeps. -/
theorem invariant_run (hstep : ∀ s a, I s → I (m.step s a).1) (s : S) (as : List A)
    (h : I s) : I (m.run s as) := by
  induction as generalizing s with
  | nil => exact h
  | cons a as ih => exact ih (m.step s a).1 (hstep s a h)

/-- A relation between history and state that every step keeps holds at the
    end of every run, with the observations of the run added to the history
    it started from. -/
theorem history_induction (I : List O → S → Prop)
    (hstep : ∀ hist s a, I hist s → I (hist ++ (m.step s a).2) (m.step s a).1)
    (hist : List O) (s : S) (as : List A) (h : I hist s) :
    I (hist ++ m.trace s as) (m.run s as) := by
  induction as generalizing hist s with
  | nil => simpa only [trace, run, append_nil] using h
  | cons a as ih =>
    simp only [trace, run, ← append_assoc]
    exact ih _ _ (hstep hist s a h)

/-- Every step of a list of actions meets a condition on the action and the
    state it is taken in. -/
def Along (P : S → A → Prop) : S → List A → Prop
  | _, [] => True
  | s, a :: as => P s a ∧ Along P (m.step s a).1 as

instance decidableAlong {P : S → A → Prop} [hP : ∀ s a, Decidable (P s a)] :
    ∀ (s : S) (as : List A), Decidable (m.Along P s as)
  | _, [] => isTrue trivial
  | s, a :: as =>
    have : Decidable (m.Along P (m.step s a).1 as) := decidableAlong (m.step s a).1 as
    inferInstanceAs (Decidable (P s a ∧ _))

variable {P : S → A → Prop}

/-- An invariant every step that meets the condition keeps holds at the end of
    a run whose steps all meet it. -/
theorem invariant_along (hstep : ∀ s a, I s → P s a → I (m.step s a).1) (h : I s)
    (halong : m.Along P s as) : I (m.run s as) := by
  induction as generalizing s with
  | nil => exact h
  | cons a as ih => exact ih (hstep s a h halong.1) halong.2

/-- Two conditions that come to the same in states that are as they should be. -/
theorem along_congr {Q : S → A → Prop} (hstep : ∀ s a, I s → P s a → I (m.step s a).1)
    (hiff : ∀ s a, I s → (P s a ↔ Q s a)) (h : I s) : m.Along P s as ↔ m.Along Q s as := by
  induction as generalizing s with
  | nil => exact Iff.rfl
  | cons a as ih =>
    exact (and_congr_right fun hP => ih (hstep s a h hP)).trans (and_congr_left' (hiff s a h))

/-- When a step from a state that is as it should be leads to a good one exactly if it
    meets the condition, and then to one that is as it should be, a run is good at
    every point exactly if its steps all meet it. -/
theorem always_iff_along (Q : S → Prop) (hgood : ∀ s, I s → Q s)
    (hstep : ∀ s a, I s → P s a → I (m.step s a).1)
    (hcond : ∀ s a, I s → Q (m.step s a).1 → P s a) (h : I s) :
    (∀ xs ys, as = xs ++ ys → Q (m.run s xs)) ↔ m.Along P s as := by
  induction as generalizing s with
  | nil =>
    refine iff_of_true (fun xs ys heq => ?_) trivial
    rw [(append_eq_nil_iff.mp heq.symm).1]
    exact hgood s h
  | cons a as ih =>
    constructor
    · intro halways
      have hP : P s a := hcond s a h (halways [a] as rfl)
      exact ⟨hP, (ih (hstep s a h hP)).mp fun xs ys heq => halways (a :: xs) ys (by rw [heq]; rfl)⟩
    · rintro ⟨hP, hrest⟩ xs ys heq
      cases xs with
      | nil => exact hgood s h
      | cons b xs =>
        obtain ⟨rfl, hrestEq⟩ := cons.inj heq
        exact (ih (hstep s a h hP)).mpr hrest xs ys hrestEq

/-- When every step that meets the condition keeps an invariant and makes only
    good observations, a run whose steps all meet it makes only good ones. -/
theorem trace_along (Q : O → Prop)
    (hstep : ∀ s a, I s → P s a → I (m.step s a).1 ∧ ∀ o ∈ (m.step s a).2, Q o) (h : I s)
    (halong : m.Along P s as) : ∀ o ∈ m.trace s as, Q o := by
  induction as generalizing s with
  | nil => simp [trace]
  | cons a as ih =>
    obtain ⟨hnext, hgood⟩ := hstep s a h halong.1
    intro o ho
    rcases mem_append.mp ho with ho | ho
    · exact hgood o ho
    · exact ih hnext halong.2 o ho

end Machine
