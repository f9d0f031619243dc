import Twinet.Agent.Transaction
import Twinet.Deploy.Prune

/-!
# Generations and Their Transactions

The records an agent keeps about the generations of its labs, and every function
that writes them. A generation is prepared, applied, perhaps verified, committed
and finalized under one fence; a recovery takes it back or carries it on under a
later one. Each function checks a part of what it should find and no function
checks all of it, so what holds between them is a matter of whole runs.

`Records` is the coordination state in memory: what a save writes, and the
leases, which it does not. Every write is told whether its save succeeds. Some
functions undo what they wrote when it does not and some leave it in memory.

Two tables are the same when every lookup in them is. How a table stores its
entries is not part of what an agent knows.

## Main definitions

* `Records`: The coordination state in memory.
* `prepareGeneration`, `finishCommittedGeneration`, `finalizeCommittedGeneration`: The
  course of a generation.
* `reopenCommittedTransaction`, `beginRecovery`, `finishRecoveredGeneration`: Its recovery.
* `Records.Same`: No lookup tells two states apart.

## Theorems

* `undestroyedRecords_same`: Nothing is left of a destroy that was undone.
* `finishCommittedGeneration_cases`: What a commit comes to.
* `failed_commit_undone_iff`: When nothing is left of a commit that was not saved.
-/

namespace Twinet

namespace Agent

/-! ### What is recorded -/

/-- A container of a lab, with the generation it was made under. Containers from
    before there were labels have the empty one. -/
structure TransactionContainer where
  name : String
  deviceID : String
  spec : String
  generation : String
deriving DecidableEq, Repr

/-- The objects of a lab on a node, as they were observed or are expected. -/
structure Inventory where
  generation : String
  containers : List TransactionContainer
  vnis : List Nat
  stateSafe : Bool
deriving DecidableEq, Repr

/-- The topology a transaction was asked for. -/
structure Manifest where
  name : String
  hash : String
deriving DecidableEq, Repr

/-- What a node preserved before it wrote any part of the reference solution. -/
structure SolveTransition where
  lab : String
  node : String
  generation : String
  fence : Nat
  topology : String
  mode : String
  ungraded : Int
  prune : Bool
  replicated : Bool
  preserved : List Deploy.OrphanPreservation
deriving DecidableEq, Repr

/-- A transaction with everything that decides its course. -/
structure JournaledTransaction extends ApplyTransaction where
  expected : String
  fenceGeneration : Nat
  /-- The topology that was asked for; `requested` is its mode. -/
  manifest : Manifest
  /-- A committed topology was recorded, readable or not. -/
  hasPrevious : Bool
  previousGen : String
  prune : Bool
  /-- The devices whose restored state has to be verified. -/
  stateProofs : List String
  solveTransition : Option SolveTransition
  touchedVNIs : List Nat
  touchedKnown : Bool
  stateVerified : Bool
  prestate : Inventory
  failure : String
  recoveryAttempts : Nat
  lastRecovery : Time
  nextRecovery : Time
  recoveryTotal : Time
  forwardAcknowledged : Bool
  applied : Bool
  committed : Bool
deriving DecidableEq, Repr

/-- The coordination state in memory. All but the leases is what a save writes. -/
structure Records where
  fenceHighWater : Table String Nat
  overlayClaims : Table Nat OverlayClaim
  generations : Table String GenerationState
  transactions : Table String JournaledTransaction
  inventories : Table String Inventory
  overlayLineage : Table String (Table Nat String)
  ephemeral : Table String EphemeralLease
  mutations : Table String ClusterLease

namespace Records

variable (r : Records) (lab : String)

/-- The part of the records that the lease operations see. -/
def server : Server where
  fenceHighWater := r.fenceHighWater
  overlayClaims := r.overlayClaims
  generations := r.generations
  transactions := r.transactions.filterMap fun _ tx => some tx.toApplyTransaction
  ephemeral := r.ephemeral
  mutations := r.mutations

/-- What is recorded about the generations of a lab. A lab never seen has the
    empty record. -/
def generation : GenerationState :=
  (r.generations.lookup lab).getD { committed := "", prepared := "", ancestors := [] }

/-- Write a transaction to the journal. -/
def journal (tx : JournaledTransaction) : Records :=
  { r with transactions := r.transactions.insert lab tx }

/-- No lookup tells the two states apart. -/
structure Same (r r' : Records) : Prop where
  fenceHighWater : ∀ lab, r.fenceHighWater.lookup lab = r'.fenceHighWater.lookup lab
  overlayClaims : ∀ vni, r.overlayClaims.lookup vni = r'.overlayClaims.lookup vni
  generations : ∀ lab, r.generations.lookup lab = r'.generations.lookup lab
  transactions : ∀ lab, r.transactions.lookup lab = r'.transactions.lookup lab
  inventories : ∀ lab, r.inventories.lookup lab = r'.inventories.lookup lab
  overlayLineage : ∀ lab, r.overlayLineage.lookup lab = r'.overlayLineage.lookup lab
  ephemeral : ∀ lab, r.ephemeral.lookup lab = r'.ephemeral.lookup lab
  mutations : ∀ lab, r.mutations.lookup lab = r'.mutations.lookup lab

/-- What decides the report about a lab. -/
def labState : LabState where
  committed := (r.generation lab).committed
  inventory := (r.inventories.lookup lab).map (·.generation)
  tx := (r.transactions.lookup lab).map fun tx =>
    { generation := tx.generation, previousGen := tx.previousGen
      prestate := tx.prestate.generation, applied := tx.applied, committed := tx.committed
      phase := tx.phase }

end Records

/-- The refusals of the functions below. -/
inductive GenerationError where
  | lease (err : LeaseError)
  | generationRequired
  | desiredMode
  | ungradedNegative
  | requestedTopology
  | requestedMode
  | modeMismatch
  | unfinished (lab generation : String)
  | compareAndSwap (lab expected committed : String)
  | persistedPreviousMode (lab : String)
  | notPrepared (generation lab : String)
  | notFullyApplied (generation lab : String)
  | notVerified (generation lab : String)
  | previousMode (generation : String)
  | cannotBeCommitted (generation lab : String)
  | notAwaitingFinalization (generation lab : String)
  | noRecoveryTransaction (generation lab : String)
  | finalized (generation lab : String)
  | prestateNotCaptured (generation lab : String)
  | noPreviousGeneration (generation lab : String)
  | runningStrategy (lab strategy : String)
  | makingProgress (lab strategy : String)
  | exceededDeadline (lab : String)
  | notAcknowledged
  | changedWhileStarting
  | persist
deriving DecidableEq, Repr

/-! ### Preparing -/

/-- The committed topology of a lab, in the store or in memory. -/
inductive Previous where
  | absent
  | unreadable
  | wire (w : Wire)
deriving DecidableEq, Repr

def Previous.wire? : Previous → Option Wire
  | wire w => some w
  | _ => none

/-- A request to prepare a generation, with what the handler found on the node:
    the committed topology, the mode it remembers and the objects of the lab. -/
structure PrepareRequest where
  expected : String
  generation : String
  requested : Option Wire
  manifest : Manifest
  mode : String
  ungraded : Int
  prune : Bool
  stateProofs : List String
  prestate : Inventory
  previous : Previous
  rememberedMode : String
  rememberedUngraded : Int
deriving DecidableEq, Repr

/-- The mode the lab was deployed in. A committed topology without one is a
    platform deployment; without a topology the remembered mode has to do. -/
def PrepareRequest.previousMode (req : PrepareRequest) : String × Int :=
  match req.previous with
  | .wire w => (if w.mode = "" then "platform" else w.mode, w.ungraded)
  | .unreadable => ("platform", 0)
  | .absent =>
    if req.rememberedMode = "" then ("platform", 0)
    else (req.rememberedMode, req.rememberedUngraded)

/-- The mode of the request, if it says the same twice. -/
def PrepareRequest.desiredMode (req : PrepareRequest) : Except GenerationError String :=
  if req.generation = "" then .error .generationRequired
  else match requireTransactionMode req.mode with
    | none => .error .desiredMode
    | some desired =>
      if req.ungraded < 0 then .error .ungradedNegative
      else match req.requested with
        | none => .error .requestedTopology
        | some requested =>
          match requireTransactionMode requested.mode with
          | none => .error .requestedMode
          | some mode =>
            if mode ≠ desired ∨ requested.ungraded ≠ req.ungraded then .error .modeMismatch
            else .ok desired

/-- The transaction of a generation that is being prepared. -/
def PrepareRequest.transaction (req : PrepareRequest) (fence : Fence) (desired committed : String) :
    JournaledTransaction where
  generation := req.generation
  requested := req.requested
  previous := req.previous.wire?
  previousMode := req.previousMode.1
  previousUngraded := req.previousMode.2
  mode := desired
  ungraded := req.ungraded
  phase := .prepared
  recoveryStrategy := ""
  recoveryProgress := 0
  recoveryDeadline := 0
  recoveryTarget := ""
  expected := req.expected
  fenceGeneration := fence.generation
  manifest := req.manifest
  hasPrevious := req.previous ≠ .absent
  previousGen := committed
  prune := req.prune
  stateProofs := req.stateProofs
  solveTransition := none
  touchedVNIs := []
  touchedKnown := false
  stateVerified := false
  prestate := req.prestate
  failure := ""
  recoveryAttempts := 0
  lastRecovery := 0
  nextRecovery := 0
  recoveryTotal := 0
  forwardAcknowledged := false
  applied := false
  committed := false

/-- How a recovery is asked for. -/
structure RecoveryRunOptions where
  takeover : Bool
  forwardAcknowledged : Bool
deriving DecidableEq, Repr

/-- A request to recover, with the limits of the node. -/
structure RecoveryRequest where
  fence : Fence
  phaseLimit : Time
  totalDeadline : Time
  options : RecoveryRunOptions

namespace Records

variable (r : Records) (now : Time) (lab : String) (fence : Fence)

def prepareGeneration (req : PrepareRequest) (ok : Bool) : Records × Option GenerationError :=
  match req.desiredMode with
  | .error err => (r, some err)
  | .ok desired =>
    match fenceError r.server lab fence now with
    | some err => (r, some (.lease err))
    | none =>
      let state := r.generation lab
      match r.transactions.lookup lab with
      | some tx =>
        -- The same request again is answered as it was.
        if tx.generation = req.generation ∧ tx.fenceGeneration = fence.generation then
          (r, none)
        else (r, some (.unfinished lab tx.generation))
      | none =>
        if state.committed ≠ req.expected then
          (r, some (.compareAndSwap lab req.expected state.committed))
        else if requireTransactionMode req.previousMode.1 = none then
          (r, some (.persistedPreviousMode lab))
        else if ok then
          ({ r with
              transactions := r.transactions.insert lab
                (req.transaction fence desired state.committed)
              generations := r.generations.insert lab
                { state with prepared := req.generation } }, none)
        else
          ({ r with
              transactions := r.transactions.erase lab
              generations := r.generations.insert lab { state with prepared := "" } },
            some .persist)

/-! ### Applying -/

section

variable (tx : JournaledTransaction) (generation : String) (inventory : Option Inventory)
  (ok : Bool)

/-- Rewrite the transaction of a generation under the fence it was prepared
    under. What is rewritten stays in memory when the save fails. -/
def amend (ready : JournaledTransaction → Bool) (refusal : GenerationError)
    (write : JournaledTransaction → JournaledTransaction) (ok : Bool) :
    Records × Option GenerationError :=
  match fenceError r.server lab fence now with
  | some err => (r, some (.lease err))
  | none =>
    match r.transactions.lookup lab with
    | none => (r, some refusal)
    | some tx =>
      if tx.generation ≠ generation ∨ tx.fenceGeneration ≠ fence.generation ∨
          ready tx = false then (r, some refusal)
      else (r.journal lab (write tx), if ok then none else some .persist)

def markGenerationApplying : Records × Option GenerationError :=
  amend r now lab fence generation (fun _ => true) (.notPrepared generation lab)
    (fun tx => { tx with phase := .applying, failure := "" }) ok

def markGenerationApplied : Records × Option GenerationError :=
  amend r now lab fence generation (fun _ => true) (.notPrepared generation lab)
    (fun tx => { tx with applied := true, phase := .applied, failure := "" }) ok

def recordGenerationSolveTransition (record : SolveTransition) (ok : Bool) :
    Records × Option GenerationError :=
  amend r now lab fence generation (fun _ => true) (.notPrepared generation lab)
    (fun tx => { tx with solveTransition := some record }) ok

/-- The identifiers that are added, each once, in order. -/
def appendTouchedVNIs (existing added : List Nat) : List Nat :=
  ((existing ++ added).filter (· ≠ 0)).dedup.insertionSort (· ≤ ·)

def recordGenerationTouched (vnis : List Nat) (known ok : Bool) :
    Records × Option GenerationError :=
  amend r now lab fence generation (fun _ => true) (.notPrepared generation lab)
    (fun tx => { tx with
      touchedVNIs := appendTouchedVNIs tx.touchedVNIs vnis
      touchedKnown := tx.touchedKnown || known }) ok

def markStateVerified : Records × Option GenerationError :=
  amend r now lab fence generation (·.applied) (.notFullyApplied generation lab)
    (fun tx => { tx with stateVerified := true }) ok

def recoveryRetryBackoff : Time := 30 * second

/-- Note the phase a transaction is in. The fence need not be the one it was
    prepared under. -/
def markTransactionPhase (phase : TransactionPhase) (failure : String)
    (ok : Bool) : Records × Option GenerationError :=
  match fenceError r.server lab fence now with
  | some err => (r, some (.lease err))
  | none =>
    match r.transactions.lookup lab with
    | none => (r, some (.noRecoveryTransaction generation lab))
    | some tx =>
      if tx.generation ≠ generation then (r, some (.noRecoveryTransaction generation lab))
      else
        let tx := { tx with phase := phase, failure := failure }
        let tx := if phase = .recovering then
          { tx with
            recoveryAttempts := tx.recoveryAttempts + 1, lastRecovery := now
            nextRecovery := 0 } else tx
        let tx := if phase = .rollbackFailed then
          { tx with
            nextRecovery := now + recoveryRetryBackoff, recoveryProgress := now
            recoveryTarget := "failed" } else tx
        let tx := if phase = .committed then
          { tx with recoveryProgress := now, recoveryTarget := "committed" } else tx
        (r.journal lab tx, if ok then none else some .persist)

/-- A recovery notes that it failed. -/
def failRecovery (failure : String) : Records :=
  (markTransactionPhase r now lab fence generation .rollbackFailed failure true).1

/-! ### Committing -/

/-- The transaction a commit is for, if it may be committed. -/
def transactionForCommit : Except GenerationError JournaledTransaction :=
  match fenceError r.server lab fence now with
  | some err => .error (.lease err)
  | none =>
    match r.transactions.lookup lab with
    | none => .error (.notFullyApplied generation lab)
    | some tx =>
      if tx.generation ≠ generation ∨ tx.fenceGeneration ≠ fence.generation ∨
          tx.applied = false ∨ tx.phase.failed = true then
        .error (.notFullyApplied generation lab)
      else if tx.stateProofs ≠ [] ∧ tx.stateVerified = false then
        .error (.notVerified generation lab)
      else if requireTransactionMode tx.mode = none then .error .desiredMode
      else if requireTransactionMode tx.previousMode = none then
        .error (.previousMode generation)
      else .ok tx

/-- The generations a lab has been at, each once, in order. -/
def appendGenerationLineage (existing : List String) (previous current : String) : List String :=
  ((existing ++ [previous, current]).filter (· ≠ "")).eraseDups

/-- The generation each overlay of an inventory goes back to. -/
def overlayLineageFor (previous : Table Nat String) (vnis : List Nat) : Table Nat String :=
  vnis.foldl (fun lineage vni => lineage.insert vni
    (if tx.touchedKnown ∧ vni ∈ tx.touchedVNIs then generation
     else match previous.lookup vni with
       | some origin => if origin ≠ "" then origin else generation
       | none => generation)) ∅

/-- What a commit records. -/
def committedRecords : Records :=
  let state := r.generation lab
  { r with
    generations := r.generations.insert lab
      { committed := generation, prepared := ""
        ancestors := appendGenerationLineage state.ancestors state.committed generation }
    inventories := match inventory with
      | some inventory => r.inventories.insert lab inventory
      | none => r.inventories
    overlayLineage := match inventory with
      | some inventory => r.overlayLineage.insert lab
          (overlayLineageFor tx generation ((r.overlayLineage.lookup lab).getD ∅) inventory.vnis)
      | none => r.overlayLineage
    transactions := r.transactions.insert lab
      { tx with committed := true, phase := .committed, failure := "" } }

/-- Put an entry back as it was. -/
def putBack {ν : Type} (table : Table String ν) (key : String) : Option ν → Table String ν
  | some value => table.insert key value
  | none => table.erase key

/-- What is undone of a commit that could not be saved. -/
def uncommittedRecords : Records :=
  let written := committedRecords r lab tx generation inventory
  { written with
    transactions := written.transactions.insert lab
      { tx with committed := false, phase := .committed, failure := "" }
    generations := written.generations.insert lab (r.generation lab)
    inventories := putBack written.inventories lab (r.inventories.lookup lab)
    overlayLineage := putBack written.overlayLineage lab (r.overlayLineage.lookup lab) }

def finishCommittedGeneration : Records × Option GenerationError :=
  match fenceError r.server lab fence now with
  | some err => (r, some (.lease err))
  | none =>
    match r.transactions.lookup lab with
    | none => (r, some (.cannotBeCommitted generation lab))
    | some tx =>
      if tx.generation ≠ generation ∨ tx.fenceGeneration ≠ fence.generation ∨
          tx.applied = false then
        (r, some (.cannotBeCommitted generation lab))
      else if ok then (committedRecords r lab tx generation inventory, none)
      else (uncommittedRecords r lab tx generation inventory, some .persist)

def finalizeCommittedGeneration : Records × Option GenerationError :=
  match fenceError r.server lab fence now with
  | some err => (r, some (.lease err))
  | none =>
    match r.transactions.lookup lab with
    | none => (r, some (.notAwaitingFinalization generation lab))
    | some tx =>
      if tx.generation ≠ generation ∨ tx.fenceGeneration ≠ fence.generation ∨
          tx.committed = false then
        (r, some (.notAwaitingFinalization generation lab))
      else if ok then ({ r with transactions := r.transactions.erase lab }, none)
      else
        ({ r with transactions := (r.transactions.erase lab).insert lab tx }, some .persist)

/-! ### Recovering -/

/-- Turn a committed transaction that is not finalized back into one that has to
    be rolled back. -/
def reopenCommittedTransaction : Records × Except GenerationError JournaledTransaction :=
  match fenceError r.server lab fence now with
  | some err => (r, .error (.lease err))
  | none =>
    match r.transactions.lookup lab with
    | none => (r, .error (.finalized generation lab))
    | some tx =>
      if tx.generation ≠ generation then (r, .error (.finalized generation lab))
      else if tx.committed = false then (r, .ok tx)
      else if tx.prestate.containers ≠ [] ∧ tx.prestate.stateSafe = false then
        (r, .error (.prestateNotCaptured generation lab))
      else if tx.previousGen = "" ∧ tx.hasPrevious = true then
        (r, .error (.noPreviousGeneration generation lab))
      else
        let state := r.generation lab
        let reopened := { tx with
          committed := false, phase := .rollbackNeeded
          failure := "cluster split commit: another node did not commit this generation" }
        if ok then
          ({ r with
              generations := r.generations.insert lab
                { state with committed := tx.previousGen, prepared := generation }
              transactions := r.transactions.insert lab reopened }, .ok reopened)
        else
          ({ r with
              generations := r.generations.insert lab state
              transactions := r.transactions.insert lab tx }, .error .persist)

/-- A recovery of the transaction is going on within its deadline. -/
def recoveryActive : Bool :=
  tx.phase = .recovering && tx.recoveryDeadline ≠ 0 && now < tx.recoveryDeadline

/-- Why a recovery of the transaction cannot begin. -/
def recoveryRefusal (strategy : String) (options : RecoveryRunOptions)
    (tx : JournaledTransaction) : Option GenerationError :=
  if tx.generation ≠ generation then some (.noRecoveryTransaction generation lab)
  else if requireTransactionMode tx.mode = none then some .desiredMode
  else if requireTransactionMode tx.previousMode = none then some (.previousMode generation)
  else if recoveryActive now tx ∧ tx.recoveryStrategy ≠ "" ∧ tx.recoveryStrategy ≠ strategy then
    some (.runningStrategy lab tx.recoveryStrategy)
  else if recoveryActive now tx ∧ options.takeover = false then some (.makingProgress lab strategy)
  else if tx.phase = .recovering ∧ options.takeover = false then some (.exceededDeadline lab)
  else if strategy = "forward" ∧ options.forwardAcknowledged = false ∧
      tx.forwardAcknowledged = false then some .notAcknowledged
  else none

/-- The transaction under recovery. -/
def begunRecovery (strategy : String) (phaseLimit totalDeadline : Time)
    (options : RecoveryRunOptions) (tx : JournaledTransaction) : JournaledTransaction :=
  { tx with
    phase := .recovering, failure := "", recoveryAttempts := tx.recoveryAttempts + 1
    lastRecovery := now, nextRecovery := 0, recoveryStrategy := strategy
    forwardAcknowledged := tx.forwardAcknowledged ||
      (strategy == "forward" && options.forwardAcknowledged)
    recoveryProgress := now, recoveryDeadline := now + phaseLimit
    recoveryTotal := totalDeadline
    recoveryTarget := "starting recovery " ++ tx.previousMode ++ "/" ++
      toString tx.previousUngraded ++ " -> " ++ tx.mode ++ "/" ++ toString tx.ungraded }

/-- Note that a recovery has begun. -/
def beginRecovery (strategy : String) (phaseLimit totalDeadline : Time)
    (options : RecoveryRunOptions) (ok : Bool) :
    Records × Except GenerationError JournaledTransaction :=
  match fenceError r.server lab fence now with
  | some err => (r, .error (.lease err))
  | none =>
    match r.transactions.lookup lab with
    | none => (r, .error (.noRecoveryTransaction generation lab))
    | some tx =>
      match recoveryRefusal now lab generation strategy options tx with
      | some err => (r, .error err)
      | none =>
        let begun := begunRecovery now strategy phaseLimit totalDeadline options tx
        (r.journal lab begun, if ok then .ok begun else .error .persist)

/-- Carrying a transaction on makes it belong to the fence of the recovery. -/
def resumeForward : Records × Except GenerationError JournaledTransaction :=
  match r.transactions.lookup lab with
  | none => (r, .error .changedWhileStarting)
  | some tx =>
    if tx.generation ≠ generation then (r, .error .changedWhileStarting)
    else
      let resumed := { tx with
        fenceGeneration := fence.generation, phase := .applying, failure := "" }
      (r.journal lab resumed, if ok then .ok resumed else .error .persist)

/-- The lab is back where the transaction found it. Only the transaction is put
    back when that cannot be saved. -/
def finishRecoveredGeneration : Records × Option GenerationError :=
  match fenceError r.server lab fence now with
  | some err => (r, some (.lease err))
  | none =>
    match r.transactions.lookup lab with
    | none => (r, some (.noRecoveryTransaction generation lab))
    | some tx =>
      if tx.generation ≠ generation then
        (r, some (.noRecoveryTransaction generation lab))
      else
        let written := { r with
          generations := r.generations.insert lab
            { r.generation lab with committed := tx.previousGen, prepared := "" }
          inventories := r.inventories.insert lab tx.prestate
          transactions := r.transactions.erase lab }
        if ok then (written, none)
        else
          ({ written with transactions := written.transactions.insert lab tx }, some .persist)

/-- What is left when a lab is forgotten. -/
def destroyedRecords : Records :=
  { r with
    overlayClaims := r.overlayClaims.filterMap fun _ claim =>
      if claim.lab = lab then none else some claim
    generations := r.generations.erase lab
    transactions := r.transactions.erase lab
    inventories := r.inventories.erase lab
    overlayLineage := r.overlayLineage.erase lab
    ephemeral := r.ephemeral.erase lab }

/-- Write what an entry was, if there was one. -/
def rewriteEntry {ν : Type} (table : Table String ν) (key : String) : Option ν → Table String ν
  | some value => table.insert key value
  | none => table

/-- A lab that was forgotten is written down again, one entry after the other. -/
def undestroyedRecords : Records :=
  let written := destroyedRecords r lab
  { written with
    generations := rewriteEntry written.generations lab (r.generations.lookup lab)
    transactions := rewriteEntry written.transactions lab (r.transactions.lookup lab)
    inventories := rewriteEntry written.inventories lab (r.inventories.lookup lab)
    overlayLineage := rewriteEntry written.overlayLineage lab (r.overlayLineage.lookup lab)
    ephemeral := rewriteEntry written.ephemeral lab (r.ephemeral.lookup lab)
    overlayClaims := Table.mergeWith (fun _ _ claim => some claim) written.overlayClaims
      (r.overlayClaims.filterMap fun _ claim => if claim.lab = lab then some claim else none) }

/-- Forget a lab that has been taken down, or put everything back. -/
def finishDestroyedLab : Records × Option GenerationError :=
  match fenceError r.server lab fence now with
  | some err => (r, some (.lease err))
  | none =>
    if ok then (destroyedRecords r lab, none) else (undestroyedRecords r lab, some .persist)

/-! ### A destroy that cannot be saved -/

theorem lookup_rewriteEntry {ν : Type} (table : Table String ν) (key k : String) :
    (rewriteEntry (table.erase key) key (table.lookup key)).lookup k = table.lookup k := by
  by_cases hk : k = key
  · subst hk
    cases hlook : table.lookup k <;> simp [rewriteEntry]
  · cases hlook : table.lookup key <;> simp [rewriteEntry, hk]

/-- Putting a lab back leaves no trace of its destroy. -/
theorem undestroyedRecords_same : Same (undestroyedRecords r lab) r where
  fenceHighWater _ := rfl
  overlayClaims vni := by
    simp only [undestroyedRecords, destroyedRecords, Table.lookup_mergeWith,
      Table.lookup_filterMap]
    cases hlook : r.overlayClaims.lookup vni with
    | none => rfl
    | some claim =>
      by_cases hlab : claim.lab = lab
      · simp [hlab]
      · simp [hlab]
  generations k := lookup_rewriteEntry r.generations lab k
  transactions k := lookup_rewriteEntry r.transactions lab k
  inventories k := lookup_rewriteEntry r.inventories lab k
  overlayLineage k := lookup_rewriteEntry r.overlayLineage lab k
  ephemeral k := lookup_rewriteEntry r.ephemeral lab k
  mutations _ := rfl

/-! ### A commit that cannot be saved -/

theorem lookup_putBack {ν : Type} (table : Table String ν) (key : String) (held : Option ν)
    (k : String) :
    (putBack table key held).lookup k = if k = key then held else table.lookup k := by
  unfold putBack
  by_cases hk : k = key
  · subst hk
    cases held <;> simp
  · rw [if_neg hk]
    cases held <;> simp [hk]

/-- The transaction of a generation under the fence it was prepared under. -/
structure Owned (generation : String) (tx : JournaledTransaction) : Prop where
  passes : fenceError r.server lab fence now = none
  lookup : r.transactions.lookup lab = some tx
  generation : tx.generation = generation
  own : tx.fenceGeneration = fence.generation

/-- A commit is refused, recorded, or undone as far as it goes. -/
theorem finishCommittedGeneration_cases :
    (∃ err, err ≠ .persist ∧
      finishCommittedGeneration r now lab fence generation inventory ok = (r, some err)) ∨
    ∃ tx, Owned r now lab fence generation tx ∧ tx.applied = true ∧
      finishCommittedGeneration r now lab fence generation inventory ok =
        if ok then (committedRecords r lab tx generation inventory, none)
        else (uncommittedRecords r lab tx generation inventory, some .persist) := by
  fun_cases finishCommittedGeneration r now lab fence generation inventory ok with
  | case1 | case2 | case3 => exact .inl ⟨_, by simp, rfl⟩
  | case4 hfence tx htx hown hok | case5 hfence tx htx hown hok =>
    push Not at hown
    exact .inr ⟨tx, ⟨hfence, htx, hown.1, hown.2.1⟩, Bool.ne_false_iff.mp hown.2.2, by simp [hok]⟩

end

variable {r now lab fence}

theorem uncommittedRecords_same_iff {tx : JournaledTransaction} {generation : String}
    {inventory : Option Inventory} (htx : r.transactions.lookup lab = some tx) :
    Same (uncommittedRecords r lab tx generation inventory) r ↔
      (tx.phase = .committed ∧ tx.failure = "" ∧ tx.committed = false) ∧
        (r.generations.lookup lab).isSome = true := by
  constructor
  · intro hsame
    have hown := hsame.transactions lab
    have hgen := hsame.generations lab
    simp only [uncommittedRecords, AList.lookup_insert] at hown hgen
    rw [htx, Option.some.injEq] at hown
    refine ⟨?_, by rw [← hgen]; rfl⟩
    rw [← hown]
    exact ⟨rfl, rfl, rfl⟩
  · rintro ⟨⟨hphase, hfailure, hcommitted⟩, hgen⟩
    obtain ⟨state, hstate⟩ := Option.isSome_iff_exists.mp hgen
    have htx' : { tx with committed := false, phase := .committed, failure := "" } = tx := by
      rw [← hphase, ← hfailure, ← hcommitted]
    refine ⟨fun _ => rfl, fun _ => rfl, fun k => ?_, fun k => ?_, fun k => ?_, fun k => ?_,
      fun _ => rfl, fun _ => rfl⟩
    -- the four tables of the lab, each at the lab and elsewhere
    all_goals by_cases hk : k = lab
    · subst hk
      simp [uncommittedRecords, Records.generation, hstate]
    · simp [uncommittedRecords, committedRecords, hk]
    · subst hk
      simp [uncommittedRecords, htx', htx]
    · simp [uncommittedRecords, committedRecords, hk]
    · subst hk
      simp [uncommittedRecords, lookup_putBack]
    · cases inventory <;> simp [uncommittedRecords, committedRecords, lookup_putBack, hk]
    · subst hk
      simp [uncommittedRecords, lookup_putBack]
    · cases inventory <;> simp [uncommittedRecords, committedRecords, lookup_putBack, hk]

/-- A commit that cannot be saved is undone in memory only if the transaction was
    already noted as committed without being so, as an earlier failure leaves it.
    Whatever it was before, the report about the lab then calls the generation
    committed. -/
theorem failed_commit_undone_iff {generation : String} {inventory : Option Inventory} {ok : Bool}
    (hfail : (finishCommittedGeneration r now lab fence generation inventory ok).2 =
      some .persist) :
    (Same (finishCommittedGeneration r now lab fence generation inventory ok).1 r ↔
      (∃ tx, r.transactions.lookup lab = some tx ∧ tx.phase = .committed ∧ tx.failure = "" ∧
        tx.committed = false) ∧ (r.generations.lookup lab).isSome = true) ∧
    ∀ found : Bool,
      let status := inventoryStatus found
        ((finishCommittedGeneration r now lab fence generation inventory ok).1.labState lab)
      status.phase = .committed ∧ status.generation = generation ∧ status.consistent = found := by
  rcases finishCommittedGeneration_cases r now lab fence generation inventory ok with
    ⟨err, herr, heq⟩ | ⟨tx, howned, -, heq⟩
  · rw [heq] at hfail
    exact absurd (Option.some.inj hfail) herr
  · cases ok with
    | true =>
      rw [heq] at hfail
      cases hfail
    | false =>
      simp only [heq, Bool.false_eq_true, if_false]
      refine ⟨?_, fun found => ?_⟩
      · rw [uncommittedRecords_same_iff howned.lookup]
        simp [howned.lookup]
      · simp [inventoryStatus, labState, uncommittedRecords, TransactionPhase.status,
          howned.generation]

/-- A lab at `g1` for which `g2` is prepared. -/
def sampleRequest : PrepareRequest where
  expected := "g1"
  generation := "g2"
  requested := some { mode := "platform", ungraded := 0 }
  manifest := { name := "lab", hash := "h2" }
  mode := "platform"
  ungraded := 0
  prune := false
  stateProofs := []
  prestate :=
    { generation := "g1", containers := [⟨"r1", "as1/r1", "s", "g1"⟩], vnis := [],
      stateSafe := true }
  previous := .wire { mode := "platform", ungraded := 0 }
  rememberedMode := "platform"
  rememberedUngraded := 0

def sampleFence : Fence := { token := "a", generation := 1 }

/-- The node of the lab, with one transaction. -/
def sampleRecords (tx : Option JournaledTransaction) : Records where
  fenceHighWater := (∅ : Table String Nat).insert "lab" 1
  overlayClaims := ∅
  generations := (∅ : Table String GenerationState).insert "lab"
    { committed := "g1", prepared := "g2", ancestors := ["g1"] }
  transactions := match tx with
    | some tx => (∅ : Table String JournaledTransaction).insert "lab" tx
    | none => ∅
  inventories := (∅ : Table String Inventory).insert "lab" sampleRequest.prestate
  overlayLineage := ∅
  ephemeral := ∅
  mutations := (∅ : Table String ClusterLease).insert "lab"
    { holder := "deploy", fence := sampleFence, untilAt := 90 * second }

/-- The transaction of the lab, applied and waiting for its commit. -/
def sampleApplied : JournaledTransaction :=
  { sampleRequest.transaction sampleFence "platform" "g1" with applied := true, phase := .applied }

/-- The second failure of a commit changes nothing more. -/
theorem second_failure_undone :
    Same (finishCommittedGeneration
      (sampleRecords (some { sampleApplied with phase := .committed })) 0 "lab" sampleFence "g2"
      none false).1 (sampleRecords (some { sampleApplied with phase := .committed })) :=
  (failed_commit_undone_iff (by decide +kernel)).1.mpr
    ⟨⟨{ sampleApplied with phase := .committed }, by decide +kernel, rfl, rfl, rfl⟩,
      by decide +kernel⟩

/-- The first one leaves an applied transaction in the phase of a committed one:
    the lab is at `g1`, and its report says `g2`, committed and consistent. -/
theorem first_failure_reported_committed :
    let before := sampleRecords (some sampleApplied)
    let after := (finishCommittedGeneration before 0 "lab" sampleFence "g2"
      (some { sampleRequest.prestate with generation := "g2" }) false).1
    (finishCommittedGeneration before 0 "lab" sampleFence "g2"
      (some { sampleRequest.prestate with generation := "g2" }) false).2 = some .persist ∧
      ¬ Same after before ∧ (after.generation "lab").committed = "g1" ∧
      inventoryStatus true (before.labState "lab") =
        { phase := .journal .applied, generation := "g2", previousGeneration := "g1"
          committedPending := false, consistent := false } ∧
      inventoryStatus true (after.labState "lab") =
        { phase := .committed, generation := "g2", previousGeneration := "g1"
          committedPending := false, consistent := true } := by
  refine ⟨by decide +kernel, fun hsame => ?_, by decide +kernel, by decide +kernel,
    by decide +kernel⟩
  exact absurd (hsame.transactions "lab") (by decide +kernel)

end Records

end Agent

end Twinet
