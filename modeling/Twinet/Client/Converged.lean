import Twinet.Agent.Journal
import Twinet.Client.Outcome

/-!
# Finalizing a Converged Commit

What a coordinator can do for a lab whose nodes have all committed a generation
and finalized none of it, because the coordinator that committed it lost its
lease before it got that far.

It takes a lease of its own on every node, reads what every node holds, and when
all of them report the same committed generation and their exact inventory it
asks each to drop what it keeps for rolling back. The request carries the new
lease's fence. A node compares it with the one the transaction was prepared
under, so it is refused everywhere, and as long as the transaction stands the
node does not prepare another.

## Main definitions

* `cluster`: The nodes of a lab as one machine.
* `finalizeConvergedCommit`: What the coordinator asks of them.
* `AcceptsNext`: The node can be prepared for a later generation.

## Theorems

* `Reached.inv`: What holds of every node of a cluster.
* `converged_commit_finalized_iff`: When a commit can be finalized.
-/

namespace Twinet

namespace Client

open Agent

variable {ι : Type} [Fintype ι]

/-- The nodes of a lab as one machine: one node makes a step at a time. -/
def cluster (lab : String) [DecidableEq ι] :
    Machine (ι → LabNode) (ι × JournalAction) (ι × String × Fence) where
  step σ a :=
    let (n, granted) := (journals lab).step (σ a.1) a.2
    (Function.update σ a.1 n, granted.map (a.1, ·))

/-- A state that a cluster of nodes that started without the lab gets to. -/
def Reached (lab : String) [DecidableEq ι] (σ : ι → LabNode) : Prop :=
  ∃ start acts, (∀ i, ∃ disk now recoveryLeaseTTL ok,
      start i = LabNode.boot disk now recoveryLeaseTTL ok) ∧
    σ = (cluster lab).run start acts

variable {lab : String}

omit [Fintype ι] in
/-- Every node of a reached cluster has its invariant. -/
theorem Reached.inv [DecidableEq ι] {σ : ι → LabNode} (h : Reached lab σ) (i : ι) :
    JournalInv lab (σ i) := by
  obtain ⟨start, acts, hstart, rfl⟩ := h
  refine (cluster lab).invariant_run (fun σ => ∀ i, JournalInv lab (σ i)) ?_ start acts ?_ i
  · intro σ a hσ j
    by_cases hj : j = a.1
    · subst hj
      simp only [cluster, Function.update_self]
      exact journalInv_step _ a.2 (hσ a.1)
    · simp only [cluster, Function.update_of_ne hj]
      exact hσ j
  · intro j
    obtain ⟨disk, now, recoveryLeaseTTL, ok, hj⟩ := hstart j
    rw [hj]
    exact journalInv_boot disk now recoveryLeaseTTL ok lab

/-- What every node reports, given whether its inventory is the one it expects. -/
def statuses (consistent : ι → Bool) (σ : ι → LabNode) : ι → RecoveryStatus :=
  fun i => inventoryStatus (consistent i) (σ i).journal.toLabState

/-- Ask a node to finalize, if it reported that it has to. -/
def finalizeNode (lab : String) (status : RecoveryStatus) (fence : Fence) (fate : Fate)
    (n : LabNode) : LabNode × Bool :=
  if status.committedPending then
    let (n', ok) := serve lab (.finalize status.generation) fence fate n
    (n', ok && fate.answered)
  else (n, true)

/-- Finalize a commit that every node reports. Nothing is done, and nothing is
    wrong, where they do not agree. -/
def finalizeConvergedCommit (lab : String) (observed : ι → RecoveryStatus) (fence : ι → Fence)
    (fate : ι → Fate) (σ : ι → LabNode) : (ι → LabNode) × Bool :=
  if converged observed then
    (fun i => (finalizeNode lab (observed i) (fence i) (fate i) (σ i)).1,
      decide (∀ i, (finalizeNode lab (observed i) (fence i) (fate i) (σ i)).2 = true))
  else (σ, true)

/-- The node can be prepared for any later generation. -/
def AcceptsNext (lab : String) (fence : Fence) (n : LabNode) : Prop :=
  ∀ generation prestate, generation ≠ "" →
    (serve lab (.prepare n.journal.committed generation prestate) fence Fate.good n).2 = true

variable {fence : Fence} {n : LabNode}

theorem acceptsNext_of_none (hpass : n.node.accepts lab fence)
    (hnone : n.journal.tx = none) : AcceptsNext lab fence n := by
  intro generation prestate hg
  unfold serve
  rw [if_pos ⟨rfl, hpass⟩]
  simp [JournalRequest.handle, prepareUnder, handlePrepare, prepareGeneration, Fate.good, hg,
    hnone]

theorem finalizeNode_iff {fate : Fate} (consistent : Bool) (hpending : n.journal.Pending)
    (hpass : n.node.accepts lab fence)
    (hfate : fate.delivered = true ∧ fate.works = true ∧ fate.answered = true) :
    (finalizeNode lab (inventoryStatus consistent n.journal.toLabState) fence fate n).2 = true ↔
      fence.generation = n.journal.fenceGeneration := by
  obtain ⟨t, ht, hc⟩ := hpending
  obtain ⟨hcommitted, hgen, -⟩ := status_of_some ht consistent
  simp only [finalizeNode, hcommitted, hgen, hc, if_true, hfate.2.2, Bool.and_true]
  rw [finalize_iff ht hc hpass ⟨hfate.1, hfate.2.1⟩, eq_comm]

theorem finalizeNode_done {fate : Fate}
    {consistent : Bool} (hpending : n.journal.Pending) (hpass : n.node.accepts lab fence)
    (hok : (finalizeNode lab (inventoryStatus consistent n.journal.toLabState) fence fate n).2
      = true) :
    let n' := (finalizeNode lab (inventoryStatus consistent n.journal.toLabState) fence fate n).1
    n'.journal.tx = none ∧ AcceptsNext lab fence n' := by
  obtain ⟨t, ht, hc⟩ := hpending
  obtain ⟨hcommitted, hgen, -⟩ := status_of_some ht consistent
  simp only [finalizeNode, hcommitted, hgen, hc, if_true, Bool.and_eq_true] at hok ⊢
  obtain ⟨hnone, hnode⟩ := finalize_done hok.1
  exact ⟨hnone, acceptsNext_of_none (by rw [hnode]; exact hpass) hnone⟩

/-- In every state a cluster gets to in which each node holds a transaction that
    is committed and not finalized: a coordinator whose fences pass finalizes it
    everywhere exactly when the nodes agree and every fence is of the generation
    the transaction was prepared under; a node can get rid of it at all, short of
    giving it up, exactly when a fence of that generation still passes; and a new
    fence ends that. -/
theorem converged_commit_finalized_iff {lab : String} [DecidableEq ι] {σ : ι → LabNode}
    (hreach : Reached lab σ) (hpending : ∀ i, (σ i).journal.Pending) :
    (∀ (fence : ι → Fence) (consistent : ι → Bool) (fate : ι → Fate),
      (∀ i, (σ i).node.accepts lab (fence i)) →
      (∀ i, (fate i).delivered = true ∧ (fate i).works = true ∧ (fate i).answered = true) →
      ((let r := finalizeConvergedCommit lab (statuses consistent σ) fence fate σ
        r.2 = true ∧ ∀ i, (r.1 i).journal.tx = none ∧ AcceptsNext lab (fence i) (r.1 i)) ↔
        converged (statuses consistent σ) = true ∧
          ∀ i, (fence i).generation = (σ i).journal.fenceGeneration)) ∧
    (∀ i, Closable lab (σ i) ↔
      ∃ f, (σ i).node.accepts lab f ∧ f.generation = (σ i).journal.fenceGeneration) ∧
    ∀ i op written f, f ∈ (leaseStep (σ i).node op).2.filterMap (grantFor lab) →
      ¬ Closable lab (leaseJournal op written (σ i)) := by
  refine ⟨fun fence consistent fate hpass hfate => ?_,
    fun i => closable_iff (hreach.inv i) (hpending i),
    fun i op written f hgrant =>
      (fresh_fence_strands (hreach.inv i) (hpending i) hgrant).not_closable⟩
  have hnode := fun i => finalizeNode_iff (consistent i) (hpending i) (hpass i) (hfate i)
  unfold finalizeConvergedCommit
  by_cases hconv : converged (statuses consistent σ) = true
  · rw [if_pos hconv]
    simp only [decide_eq_true_eq, true_and, hconv]
    constructor
    · rintro ⟨hok, -⟩ i
      exact (hnode i).mp (hok i)
    · intro hown
      have hok := fun i => (hnode i).mpr (hown i)
      exact ⟨hok, fun i => finalizeNode_done (hpending i) (hpass i) (hok i)⟩
  · rw [if_neg hconv]
    simp only [hconv, Bool.false_eq_true, false_and, iff_false, true_and]
    -- Where the nodes do not agree there is one, and it keeps its transaction.
    intro hnone
    refine hconv (decide_eq_true_eq.mpr fun i => ?_)
    obtain ⟨t, ht, -⟩ := hpending i
    rw [(hnone i).1] at ht
    cases ht

/-- A coordinator that prepares, applies and commits a generation on a node. -/
def committing (i : Fin 2) : List (Fin 2 × JournalAction) :=
  let fence : Fence := { token := "a", generation := 1 }
  [(i, .lease (.acquire { lab := "lab", holder := "deploy", ttlSeconds := 90 }
    (some "a") true) true),
    (i, .request (.prepare "" "g1" "") fence Fate.good),
    (i, .request (.apply "g1") fence Fate.good),
    (i, .request (.commit "g1") fence Fate.good)]

/-- The lease runs out and another coordinator takes one. -/
def takingOver (i : Fin 2) : List (Fin 2 × JournalAction) :=
  [(i, .lease (.tick (91 * second)) false),
    (i, .lease (.acquire { lab := "lab", holder := "recover", ttlSeconds := 90 } (some "b") true)
      true)]

/-- A cluster of two nodes after these steps. -/
def afterSteps (acts : List (Fin 2 × JournalAction)) : Fin 2 → LabNode :=
  (cluster "lab").run (fun _ => LabNode.boot none 0 0 true) acts

theorem reached_afterSteps (acts : List (Fin 2 × JournalAction)) :
    Reached "lab" (afterSteps acts) :=
  ⟨_, acts, fun _ => ⟨none, 0, 0, true, rfl⟩, rfl⟩

def bothCommitted : Fin 2 → LabNode := afterSteps ((List.finRange 2).flatMap committing)

/-- While the lease lasts, the coordinator that committed can finalize. -/
theorem live_lease_finalizes :
    (let r := finalizeConvergedCommit "lab" (statuses (fun _ => true) bothCommitted)
        (fun _ => { token := "a", generation := 1 }) (fun _ => Fate.good) bothCommitted
     r.2 = true ∧ ∀ i, (r.1 i).journal.tx = none ∧
        AcceptsNext "lab" { token := "a", generation := 1 } (r.1 i)) ∧
    Closable "lab" (bothCommitted 0) := by
  have h := converged_commit_finalized_iff
    (reached_afterSteps ((List.finRange 2).flatMap committing)) (by decide +kernel)
  exact ⟨(h.1 (fun _ => { token := "a", generation := 1 }) (fun _ => true) (fun _ => Fate.good)
      (by decide +kernel) (fun _ => ⟨rfl, rfl, rfl⟩)).mpr (by decide +kernel),
    (h.2.1 0).mpr ⟨{ token := "a", generation := 1 }, by decide +kernel⟩⟩

/-- Both nodes committed, the lease ran out, and the one that takes over holds
    fences that pass and sees both nodes agree. Neither finalizes, and neither
    can be prepared for the next generation. -/
theorem lost_lease_strands :
    let σ := afterSteps (committing 0 ++ committing 1 ++ takingOver 0 ++ takingOver 1)
    let fence : Fence := { token := "b", generation := 2 }
    let r := finalizeConvergedCommit "lab" (statuses (fun _ => true) σ) (fun _ => fence)
      (fun _ => Fate.good) σ
    (∀ i, (σ i).journal.Pending ∧ (σ i).node.accepts "lab" fence) ∧
      converged (statuses (fun _ => true) σ) = true ∧ r.2 = false ∧
      (∀ i, (r.1 i).journal.Pending) ∧
      ∀ i, (serve "lab" (.prepare "g1" "g2" "") fence Fate.good (r.1 i)).2 = false := by
  decide +kernel

end Client

end Twinet
