import Mathlib.Data.Fintype.Card
import Twinet.Agent.Transaction

/-!
# Cluster Apply

The coordinator of a cluster-wide deployment: prepare, apply, commit and
finalize on every node, and recover what was begun when one of them fails.

The nodes of the cluster are the elements of a finite type. Each phase sends
every node one request, and a phase is over when every request has been
answered or has failed, so the state after a phase is taken node by node. A
`Pattern` says what becomes of each request of a run and how the checks
between the phases turn out.

## Main definitions

* `Pattern`: What becomes of every request of a run.
* `recoverWithLease`: The recovery of a failed apply.
* `coordinatedApply`: A cluster apply, its report and the state it leaves.
-/

namespace Twinet

namespace Client

open Agent

variable {ι : Type} [Fintype ι]

/-- What becomes of every request of one run, by phase and node, and of the
    checks between the phases. -/
structure Pattern (ι : Type) where
  /-- The committed generation was read from every node, the renderer mode is
      known and the overlays are reserved. -/
  begins : Bool
  /-- The generation the containers found while preparing are labelled with. -/
  prestate : ι → String
  prepare : ι → Fate
  apply : ι → Fate
  /-- The lease is still held and images and restored state verify. -/
  appliedChecks : Bool
  commit : ι → Fate
  finalize : ι → Fate
  verify : ι → Fate
  leaseAtEnd : Bool
  recover : ι → Fate
  observe : ι → Fate
  abandon : ι → Fate
  reobserve : ι → Fate
  finish : ι → Fate
  settle : ι → Fate
  leaseInRecovery : Bool

/-- What the coordinator tells its caller. -/
inductive Report where
  | done
  /-- The mutation did not commit. -/
  | notCommitted
  /-- The mutation did not commit, and the prior generation was recovered. -/
  | recovered
  /-- The mutation is committed on every node, but did not complete. -/
  | committed
deriving DecidableEq, Repr

/-- The state of the cluster after every node handled one request. -/
def fanOut (handle : ι → LabState → LabState × Bool) (σ : ι → LabState) : ι → LabState :=
  fun i => (handle i (σ i)).1

/-- Every node was seen to handle its request. -/
def answeredAll (handle : ι → LabState → LabState × Bool) (fate : ι → Fate) (σ : ι → LabState) :
    Bool :=
  decide (∀ i, (handle i (σ i)).2 = true ∧ (fate i).answered = true)

/-- A node not holding a disputed commit that is still moving, or that is not
    verifiably anywhere. -/
def unsettled (status : RecoveryStatus) : Bool :=
  status.phase == .journal .recovering || (status.phase != .idle && !status.consistent)

variable (status : ι → RecoveryStatus)

/-- Some nodes hold a commit that is not finalized, the others agree on one
    generation, and that generation is the one all of the commits came from. -/
def detectSplitCommit : Bool :=
  decide (2 ≤ Fintype.card ι ∧
    (∀ i, (status i).committedPending = false → unsettled (status i) = false) ∧
    (∃ i, (status i).committedPending = true) ∧
    ∃ k, (status k).committedPending = false ∧ (status k).generation ≠ "" ∧
      (∀ i, (status i).committedPending = false → (status i).generation = (status k).generation) ∧
      ∀ i, (status i).committedPending = true →
        (status i).previousGeneration = (status k).generation)

/-- Every node reports the same committed generation and its exact inventory. -/
def converged : Bool :=
  decide (∀ i, (status i).phase = .committed ∧ (status i).consistent = true ∧
    (status i).generation ≠ "" ∧ ∀ j, (status i).generation = (status j).generation)

/-- Every node is idle or consistent, none awaits finalization, and the
    generations reported agree. -/
def settled : Bool :=
  decide (∀ i, ((status i).phase = .idle ∨ (status i).consistent = true) ∧
    (status i).committedPending = false ∧
    ∀ j, (status i).generation ≠ "" → (status j).generation ≠ "" →
      (status i).generation = (status j).generation)

/-- The status of every node, read again. A node that does not answer keeps the
    status it gave when it was asked to recover, if it gave one. -/
def observeNodes (fate : ι → Fate) (known : ι → Option RecoveryStatus) (σ : ι → LabState) (i : ι) :
    Option RecoveryStatus :=
  if (fate i).answered then some (inventoryStatus (fate i).consistent (σ i)) else known i

/-- A decision is taken from the state of the whole cluster or not at all. -/
def decided (decision : (ι → RecoveryStatus) → Bool) (observed : ι → Option RecoveryStatus) :
    Bool :=
  if h : ∀ i, (observed i).isSome then decision fun i => (observed i).get (h i) else false

variable (p : Pattern ι) (σ : ι → LabState)

/-- What the first pass of a recovery learns from a node. -/
def recoverStatus (i : ι) : Option RecoveryStatus :=
  let (s, ok) := handleRecover false (p.recover i) (σ i)
  if ok && (p.recover i).answered then some (inventoryStatus (p.recover i).consistent s) else none

/-- The nodes a split commit is rolled back on. -/
def splitNodes (i : ι) : Bool :=
  let σ₁ := fanOut (fun i => handleRecover false (p.recover i)) σ
  let observed := observeNodes p.observe (recoverStatus p σ) σ₁
  decided detectSplitCommit observed && (observed i).any (·.committedPending)

/-- Abandon the commit on the nodes of a split. -/
def abandonSplit (split : ι → Bool) (i : ι) (s : LabState) : LabState × Bool :=
  if split i then
    let (s', ok) := handleRecover true (p.abandon i) s
    (s', ok && (p.abandon i).answered)
  else (s, true)

/-- Finalize a commit every node turned out to hold. -/
def finishConverged (observed : ι → Option RecoveryStatus) (i : ι) (s : LabState) :
    LabState × Bool :=
  match observed i with
  | some status =>
    if decided converged observed && status.committedPending then
      let (s', ok) := handleFinalize status.generation (p.finish i) s
      (s', ok && (p.finish i).answered)
    else (s, true)
  | none => (s, true)

/-- Recovery of a failed apply by rollback: whether it reports success, and the
    state it leaves. -/
def recoverWithLease : Bool × (ι → LabState) :=
  let pass := fun i => handleRecover false (p.recover i)
  let σ₁ := fanOut pass σ
  let abandon := abandonSplit p (splitNodes p σ)
  let σ₂ := fanOut abandon σ₁
  if answeredAll pass p.recover σ && decide (∀ i, (abandon i (σ₁ i)).2 = true) then
    let finish := finishConverged p (observeNodes p.reobserve (recoverStatus p σ) σ₂)
    let σ₃ := fanOut finish σ₂
    let final := observeNodes p.settle (fun _ => none) σ₃
    (decide (∀ i, (finish i (σ₂ i)).2 = true) && decided settled final && p.leaseInRecovery, σ₃)
  else (false, σ₂)

/-- The report of an apply that failed before every node acknowledged commit. -/
def recoverFailedApply : Report × (ι → LabState) :=
  let (ok, σ') := recoverWithLease p σ
  (if ok then .recovered else .notCommitted, σ')

/-- Every node verifies the committed generation and its inventory. -/
def verifyCommitted (generation : String) (σ : ι → LabState) : Bool :=
  decide (∀ i, (p.verify i).answered = true ∧
    (inventoryStatus (p.verify i).consistent (σ i)).consistent = true ∧
    (inventoryStatus (p.verify i).consistent (σ i)).generation = generation)

/-- A cluster apply of `generation` over the committed generation `expected`. -/
def coordinatedApply (expected generation : String) (σ : ι → LabState) : Report × (ι → LabState) :=
  if !p.begins || decide (∃ i, (σ i).committed ≠ expected) || generation == "" then
    (.notCommitted, σ)
  else
    let prepare := fun i => handlePrepare expected generation (p.prestate i) (p.prepare i)
    let σ₁ := fanOut prepare σ
    if !answeredAll prepare p.prepare σ then recoverFailedApply p σ₁
    else
      let apply := fun i => handleApply generation (p.apply i)
      let σ₂ := fanOut apply σ₁
      if !answeredAll apply p.apply σ₁ || !p.appliedChecks then recoverFailedApply p σ₂
      else
        let commit := fun i => handleCommit generation (p.commit i)
        let σ₃ := fanOut commit σ₂
        if !answeredAll commit p.commit σ₂ then recoverFailedApply p σ₃
        else
          let finalize := fun i => handleFinalize generation (p.finalize i)
          let σ₄ := fanOut finalize σ₃
          if !answeredAll finalize p.finalize σ₃ then (.committed, σ₄)
          else if !verifyCommitted p generation σ₄ then (.committed, σ₄)
          else if !p.leaseAtEnd then (.committed, (recoverWithLease p σ₄).2)
          else (.done, σ₄)

end Client

end Twinet
