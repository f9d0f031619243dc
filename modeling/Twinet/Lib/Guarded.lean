import Mathlib.Data.List.Basic

/-!
# Guarded Commands

A machine that takes commands one after the other and may turn one down, and
with it all that are left. What the commands do is separate from whether they are
accepted.

## Main definitions

* `Guarded`: A machine by what it accepts and what it then does.
* `Guarded.run`: What a list of commands leads to.

## Theorems

* `Guarded.run_invariant`: What every accepted command keeps.
* `Guarded.run_length`: A measure that falls bounds the run.
-/

/-- Commands that are accepted or turned down, and change the state. -/
structure Guarded (σ κ : Type) where
  accepts : σ → κ → Bool
  apply : σ → κ → σ

namespace Guarded

variable {σ κ : Type} (g : Guarded σ κ)

/-- Take the commands until one is turned down. -/
def run : σ → List κ → Option σ
  | s, [] => some s
  | s, c :: rest => if g.accepts s c then run (g.apply s c) rest else none

variable {g} {s : σ} {cs : List κ} {s' : σ}

/-! ### Runs of commands of one kind -/

section Kind

variable {P : κ → Prop} {I : σ → Prop}
  (hstep : ∀ s c, P c → I s → g.accepts s c = true → I (g.apply s c))

include hstep in
/-- What every accepted step keeps, a run keeps. -/
theorem run_invariant (hP : ∀ c ∈ cs, P c) (h : I s) (hrun : g.run s cs = some s') : I s' := by
  induction cs generalizing s with
  | nil =>
    cases hrun
    exact h
  | cons c rest ih =>
    obtain ⟨hc, hrest⟩ := List.forall_mem_cons.mp hP
    rw [run] at hrun
    split_ifs at hrun with hacc
    exact ih hrest (hstep s c hc h hacc) hrun

variable {μ : σ → ℕ}
  (hfall : ∀ s c, P c → I s → g.accepts s c = true → μ (g.apply s c) < μ s)

include hstep hfall in
/-- A measure that falls bounds the length of a run. -/
theorem run_length (hP : ∀ c ∈ cs, P c) (h : I s)
    (hrun : g.run s cs = some s') : cs.length + μ s' ≤ μ s := by
  induction cs generalizing s with
  | nil =>
    cases hrun
    simp
  | cons c rest ih =>
    obtain ⟨hc, hrest⟩ := List.forall_mem_cons.mp hP
    rw [run] at hrun
    split_ifs at hrun with hacc
    have hle := ih hrest (hstep s c hc h hacc) hrun
    have hlt := hfall s c hc h hacc
    rw [List.length_cons]
    omega

end Kind

end Guarded
