import Mathlib.Order.Nat
import Twinet.Lib.Machine

/-!
# Fencing Ledgers

Leases ordered by a generation number, in the abstract. A ledger remembers at
most one holder with a deadline, and a bound that every generation handed out
so far lies under. The bound is the part of the ledger that outlives a crash;
the holder is not.

`Ledger.Step` says everything a ledger may do in one move: time passes, the
bound rises, the holder is dropped, kept or extended while it is still live,
or a fence strictly above the bound is granted. A concrete lease service that
refines this relation has fencing for free: generations only grow, one fence
is live at a time, and a fence that stopped being live stays so.

The last of these is the one that needs a history. A dropped fence leaves no
trace in the ledger except through the bound, and it is the bound that keeps a
later grant from reissuing it.

## Main definitions

* `Ledger`: Bound, holder and clock of one lease.
* `Ledger.Step`: One move of a ledger.
* `Ledger.Live`, `Ledger.Spent`: A fence that passes, and a generation that never will.
* `Refines`: A machine whose steps are such moves.

## Theorems

* `Ledger.live_unique`: At most one fence is live.
* `Ledger.consistent_step`: A move keeps the ledger consistent with history.
* `Ledger.Step.held`, `Ledger.Step.live`: Where a holder and a live fence come from.
* `Ledger.stale_step`: A granted fence that is not live stays so.
* `Ledger.bounded_step`, `Ledger.spent_step`: What a move keeps of the bound.
* `Ledger.Step.quiet_trans`: Quiet moves are absorbed by the move after them.
* `Ledger.consistent_run`: The generations granted in a run.
* `Ledger.stale_run`: Staleness along a run.
-/

/-- Bound, holder and clock of one lease. -/
structure Ledger (φ : Type) where
  bound : Nat
  holder : Option (φ × Nat)
  now : Nat

namespace Ledger

open List Option

variable {φ : Type} (gen : φ → Nat)

variable (l : Ledger φ)

/-- The fence is the holder's and its deadline has not passed. -/
def Live (f : φ) : Prop :=
  ∃ d, l.holder = some (f, d) ∧ l.now < d

/-- What the holder may become without a grant. -/
inductive HolderStep (l : Ledger φ) : Option (φ × Nat) → Prop
  | dropped : HolderStep l none
  | kept : HolderStep l l.holder
  | extended (f : φ) (d : Nat) : Live l f → HolderStep l (some (f, d))

/-- One move of a ledger. -/
structure Step (granted : Option φ) (l' : Ledger φ) : Prop where
  clock : l.now ≤ l'.now
  raised : l.bound ≤ l'.bound
  holder : granted = none → HolderStep l l'.holder
  fresh : ∀ f, granted = some f →
    l.bound < gen f ∧ gen f ≤ l'.bound ∧ ∃ d, l'.holder = some (f, d)

/-- The ledger agrees with the fences granted before: they were granted in
    order of generation, none is above the bound, and whoever holds the lease
    holds the latest of them. -/
structure Consistent (hist : List φ) (l : Ledger φ) : Prop where
  increasing : hist.Pairwise (fun f g => gen f < gen g)
  bounded : ∀ f ∈ hist, gen f ≤ l.bound
  latest : ∀ f d, l.holder = some (f, d) → ∀ g ∈ hist, gen g ≤ gen f

/-- At most one fence is live. -/
theorem live_unique (f g : φ) (hf : Live l f) (hg : Live l g) : f = g := by
  rcases hf with ⟨d, hd, _⟩
  rcases hg with ⟨e, he, _⟩
  rw [hd, some.injEq, Prod.mk.injEq] at he
  exact he.1

theorem consistent_nil : Consistent gen [] l where
  increasing := Pairwise.nil
  bounded := nofun
  latest := nofun

variable {granted : Option φ}

/-- Whoever holds the lease after a move held it before, live if it is live now, or
    is the one the move granted it to. -/
theorem Step.held {l l' : Ledger φ} {f : φ} {d : Nat} (hstep : Step gen l granted l')
    (hd : l'.holder = some (f, d)) :
    (∃ e, l.holder = some (f, e) ∧ (l'.now < d → l.now < e)) ∨ granted = some f := by
  cases granted with
  | none =>
    have hold := hstep.holder rfl
    rw [hd] at hold
    generalize hx : some (f, d) = x at hold
    cases hold with
    | dropped => simp only [reduceCtorEq] at hx
    | kept => exact .inl ⟨d, hx.symm, hstep.clock.trans_lt⟩
    | extended f' d' hlive =>
      rw [some.injEq, Prod.mk.injEq] at hx
      rcases hlive with ⟨e, he, hlt⟩
      rw [hx.1]
      exact .inl ⟨e, he, fun _ => hlt⟩
  | some g =>
    rcases hstep.fresh g rfl with ⟨_, _, e, he⟩
    rw [hd, some.injEq, Prod.mk.injEq] at he
    rw [he.1]
    exact .inr rfl

/-- A move keeps the ledger in step with the history. -/
theorem consistent_step (hist : List φ) (l l' : Ledger φ) (granted : Option φ)
    (h : Consistent gen hist l) (hstep : Step gen l granted l') :
    Consistent gen (hist ++ granted.toList) l' := by
  cases granted with
  | none =>
    rw [toList_none, append_nil]
    refine ⟨h.increasing, fun f hf => (h.bounded f hf).trans hstep.raised, ?_⟩
    intro f d hf g hg
    rcases hstep.held gen hf with ⟨e, he, _⟩ | hgranted
    · exact h.latest f e he g hg
    · cases hgranted
  | some f =>
    rcases hstep.fresh f rfl with ⟨hnew, hle, d, hhold⟩
    -- Everything granted before lies under the old bound, the new fence above it.
    have hbelow : ∀ g ∈ hist, gen g < gen f := fun g hg =>
      (h.bounded g hg).trans_lt hnew
    have hmem : ∀ g, g ∈ hist ++ (some f).toList → g ∈ hist ∨ g = f := by
      intro g hg
      simpa only [toList_some, mem_append, mem_singleton] using hg
    refine ⟨?_, ?_, ?_⟩
    · rw [toList_some, pairwise_append]
      refine ⟨h.increasing, pairwise_singleton _ _, fun g hg f' hf' => ?_⟩
      rw [mem_singleton.mp hf']
      exact hbelow g hg
    · intro g hg
      rcases hmem g hg with hg | rfl
      · exact (hbelow g hg).le.trans hle
      · exact hle
    · intro f' d' hf' g hg
      rw [hhold, some.injEq, Prod.mk.injEq] at hf'
      rw [← hf'.1]
      rcases hmem g hg with hg | rfl
      · exact (hbelow g hg).le
      · exact le_refl _

/-- Whoever is live after a move was live before it or is the one it granted
    the lease to. -/
theorem Step.live {l l' : Ledger φ} {f : φ} (hstep : Step gen l granted l')
    (h : Live l' f) : Live l f ∨ granted = some f := by
  rcases h with ⟨d, hd, hlt⟩
  rcases hstep.held gen hd with ⟨e, he, hlive⟩ | hgranted
  · exact .inl ⟨e, he, hlive hlt⟩
  · exact .inr hgranted

/-- A fence granted before that is not live any more is not live after the
    next move either: only the live holder is extended, and a grant is above
    everything granted before. -/
theorem stale_step (hist : List φ) (l l' : Ledger φ) (granted : Option φ) (f : φ)
    (h : Consistent gen hist l) (hstep : Step gen l granted l') (hf : f ∈ hist)
    (hstale : ¬ Live l f) : ¬ Live l' f := by
  intro hlive
  rcases hstep.live gen hlive with hlive | hgranted
  · exact hstale hlive
  · have hnew := (hstep.fresh f hgranted).1
    have hle := h.bounded f hf
    omega

/-- The holder's generation lies under the bound. -/
def Bounded : Prop :=
  ∀ f d, l.holder = some (f, d) → gen f ≤ l.bound

/-- The holder stays under the bound. -/
theorem bounded_step {l l' : Ledger φ} (h : Bounded gen l)
    (hstep : Step gen l granted l') : Bounded gen l' := by
  intro f d hf
  rcases hstep.held gen hf with ⟨e, he, _⟩ | hgranted
  · exact (h f e he).trans hstep.raised
  · exact (hstep.fresh f hgranted).2.1

/-- The generation was handed out and no fence of it that meets the condition
    is live. -/
def Spent (Q : φ → Prop) (l : Ledger φ) (g : Nat) : Prop :=
  g ≤ l.bound ∧ ∀ f, Q f → Live l f → gen f ≠ g

/-- A spent generation stays spent. -/
theorem spent_step {Q : φ → Prop} {l l' : Ledger φ} {g : Nat} (h : Spent gen Q l g)
    (hstep : Step gen l granted l') : Spent gen Q l' g := by
  refine ⟨h.1.trans hstep.raised, fun f hf hlive => ?_⟩
  rcases hstep.live gen hlive with hlive | hgranted
  · exact h.2 f hf hlive
  · have hnew := (hstep.fresh f hgranted).1
    have hle := h.1
    omega

/-- A move that grants nothing, followed by any move, is that move seen from
    further back. -/
theorem Step.quiet_trans {l l₁ l₂ : Ledger φ} (h : Step gen l none l₁)
    (h' : Step gen l₁ granted l₂) : Step gen l granted l₂ where
  clock := h.clock.trans h'.clock
  raised := h.raised.trans h'.raised
  holder := by
    intro hnone
    have hfst := h.holder rfl
    have hsnd := h'.holder hnone
    generalize hx : l₂.holder = x at hsnd
    cases hsnd with
    | dropped => exact HolderStep.dropped
    | kept => exact hfst
    | extended f d hlive =>
      -- Whoever is live in the middle was already live at the start.
      rcases hlive with ⟨e, he, hlt⟩
      rw [he] at hfst
      generalize hy : some (f, e) = y at hfst
      cases hfst with
      | dropped => simp only [reduceCtorEq] at hy
      | kept => exact HolderStep.extended f d ⟨e, hy.symm, h.clock.trans_lt hlt⟩
      | extended f' e' hlive' =>
        rw [some.injEq, Prod.mk.injEq] at hy
        rw [hy.1]
        exact HolderStep.extended f' d hlive'
  fresh := by
    intro f hf
    rcases h'.fresh f hf with ⟨hnew, hrest⟩
    exact ⟨h.raised.trans_lt hnew, hrest⟩

section Run

variable {S A O : Type} (m : Machine S A O) (view : S → Ledger φ) (grant : O → Option φ)
  (I : S → Prop)

/-- A machine whose every step is a move of the ledger it is viewed as. The
    invariant is whatever the machine needs to be viewed that way. -/
structure Refines : Prop where
  keeps : ∀ s a, I s → I (m.step s a).1
  moves : ∀ s a, I s → ∃ granted : Option φ,
    (m.step s a).2.filterMap grant = granted.toList ∧
      Step gen (view s) granted (view (m.step s a).1)

variable {m view grant I}

/-- The ledger of a refining machine is consistent with everything it granted
    on the way. -/
theorem consistent_run (href : Refines gen m view grant I) (hist : List φ) (s : S)
    (as : List A) (hI : I s) (h : Consistent gen hist (view s)) :
    Consistent gen (hist ++ (m.trace s as).filterMap grant) (view (m.run s as)) := by
  induction as generalizing hist s with
  | nil => simpa only [Machine.trace, Machine.run, filterMap_nil, append_nil] using h
  | cons a as ih =>
    rcases href.moves s a hI with ⟨granted, hout, hmove⟩
    have hmid := consistent_step gen hist _ _ _ h hmove
    rw [← hout] at hmid
    have hrest := ih _ _ (href.keeps s a hI) hmid
    simpa only [Machine.trace, Machine.run, filterMap_append, append_assoc] using hrest

/-- A granted fence that is not live stays so in a run. -/
theorem stale_run (href : Refines gen m view grant I) (hist : List φ) (s : S) (as : List A)
    (f : φ) (hI : I s) (h : Consistent gen hist (view s)) (hf : f ∈ hist)
    (hstale : ¬ Live (view s) f) : ¬ Live (view (m.run s as)) f := by
  induction as generalizing hist s with
  | nil => exact hstale
  | cons a as ih =>
    rcases href.moves s a hI with ⟨granted, _, hmove⟩
    exact ih _ _ (href.keeps s a hI) (consistent_step gen hist _ _ _ h hmove)
      (mem_append_left _ hf) (stale_step gen hist _ _ _ f h hmove hf hstale)

end Run

end Ledger
