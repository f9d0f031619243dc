import Twinet.Lib.Strings
import Twinet.Lib.Table

/-!
# Node Coordination State

The part of an agent that decides who may mutate a lab: mutation leases and
their fences, the per-lab generation counter, overlay reservations, and the
record of all of it that survives a restart.

A lease lives in memory only. What is durable is the highest generation ever
used for each lab, so a restarted agent has forgotten every token but can
never hand the same generation out again. `Server` therefore extends
`CoordinationState`, which is exactly what a save writes and a load reads.

A `Node` is an agent together with the file its saves replace and with the
clock it reads. Every save is told whether it succeeds; a failed one leaves
the file alone, since the file is replaced by an atomic rename. The node has a
state directory, so a save is always attempted.

Times are nanoseconds since the zero time of the source, so the zero time is
`0`. Generations are natural numbers: each increment of the 64-bit counter is
followed by a durable write, which keeps the counter far from its bound.

## Main definitions

* `CoordinationState`, `Server`, `Node`: What is durable, memory, and both with a clock.
* `fenceError`: The check every mutation makes.
* `acquireMutationLease`, `acquireRecoveryFence`, `renewMutationLease`,
  `releaseMutationLease`: The lease operations.
* `loadCoordination`, `restart`: What a restarted agent reads back.
-/

namespace Twinet

namespace Agent

/-- Nanoseconds since the zero time. -/
abbrev Time := Nat

/-- The number of nanoseconds in a second. -/
def second : Time := 1000000000

/-- One issued mutation lease: the generation orders leases, the token proves
    ownership of that particular generation. The generation is a `uint64` in
    the code; its wrap after `2 ^ 64` leases of one lab is not modelled. -/
structure Fence where
  token : String
  generation : Nat
deriving DecidableEq, Repr

structure LeaseAcquireRequest where
  lab : String
  holder : String
  ttlSeconds : Int
deriving DecidableEq, Repr

structure LeaseRenewRequest where
  lab : String
  fence : Fence
  ttlSeconds : Int
deriving DecidableEq, Repr

structure LeaseReleaseRequest where
  lab : String
  fence : Fence
deriving DecidableEq, Repr

structure LeaseResponse where
  lab : String
  fence : Fence
  expiresAt : Time
deriving DecidableEq, Repr

def defaultMutationLeaseSeconds : Int := 90

def maxMutationLeaseSeconds : Int := 600

/-- An in-memory lease. A restart forgets it. -/
structure ClusterLease where
  holder : String
  fence : Fence
  untilAt : Time
deriving DecidableEq, Repr

/-- A short-lived reservation of an overlay identifier, or the durable record
    of a live overlay. -/
structure OverlayClaim where
  lab : String
  generation : Nat
  untilAt : Time
  live : Bool
deriving DecidableEq, Repr

structure GenerationState where
  committed : String
  prepared : String
  ancestors : List String
deriving DecidableEq, Repr

/-- The durable phase of an apply transaction. `unset` is the empty phase of
    records written before phases existed. -/
inductive TransactionPhase where
  | unset
  | prepared
  | applying
  | applied
  | rollbackNeeded
  | recovering
  | rollbackFailed
  | committed
deriving DecidableEq, Repr

/-- The mode fields a persisted topology carries. A topology that is absent or
    does not decode is `none` wherever one is expected. -/
structure Wire where
  mode : String
  ungraded : Int
deriving DecidableEq, Repr

structure ApplyTransaction where
  generation : String
  requested : Option Wire
  previous : Option Wire
  previousMode : String
  previousUngraded : Int
  mode : String
  ungraded : Int
  phase : TransactionPhase
  recoveryStrategy : String
  recoveryProgress : Time
  recoveryDeadline : Time
  recoveryTarget : String
deriving DecidableEq, Repr

/-- The bounded lifetime of a disposable lab. -/
structure EphemeralLease where
  lab : String
  owner : String
  ttlSeconds : Int
  generation : String
  createdAt : Time
  expiresAt : Time
  hardExpiresAt : Time
  restored : Bool
deriving DecidableEq, Repr

/-- What a save writes and a load reads back. -/
structure CoordinationState where
  fenceHighWater : Table String Nat
  overlayClaims : Table Nat OverlayClaim
  generations : Table String GenerationState
  transactions : Table String ApplyTransaction
  ephemeral : Table String EphemeralLease

/-- The agent's memory: the durable record and the leases no restart keeps. -/
structure Server extends CoordinationState where
  mutations : Table String ClusterLease

/-- The memory of an agent that has read nothing back yet. -/
def initCoordination : Server where
  fenceHighWater := ∅
  overlayClaims := ∅
  generations := ∅
  transactions := ∅
  ephemeral := ∅
  mutations := ∅

/-- An agent, the coordination file its saves replace, and its clock. -/
structure Node where
  server : Server
  disk : Option CoordinationState
  now : Time
  recoveryLeaseTTL : Time

/-- The generation counter of a lab; a lab never seen counts from zero. -/
def CoordinationState.highWater (c : CoordinationState) (lab : String) : Nat :=
  (c.fenceHighWater.lookup lab).getD 0

/-- The refusals of the lease operations. -/
inductive LeaseError where
  | labRequired
  | mutationMustNameLab
  | fenceRequired
  | leaseExpiredOrReleased (lab : String)
  | fenceStale (lab : String)
  | alreadyLeased (lab holder : String) (untilAt : Time)
  | alreadyLeasedRecovering (lab holder : String) (untilAt : Time)
      (strategy target : String) (progress deadline : Time)
  | stillLeased (lab holder : String)
  | generateToken
  | persistFenceGeneration
  | persistExpired
  | persistRenewed
  | persistReleased
  | persistRecovery
deriving DecidableEq, Repr

/-- The lifetime a lease is granted: a default where none is asked for, and
    never more than the maximum. -/
def leaseTTL (seconds : Int) : Time :=
  let seconds := if seconds ≤ 0 then defaultMutationLeaseSeconds else seconds
  let seconds := if seconds > maxMutationLeaseSeconds then maxMutationLeaseSeconds else seconds
  seconds.toNat * second

def defaultRecoveryLeaseTTL : Time := 90 * second

variable (tx : ApplyTransaction) (n : Node) (lab : String) (fence : Fence)

def Node.recoveryLeaseLimit : Time :=
  if n.recoveryLeaseTTL > 0 then n.recoveryLeaseTTL else defaultRecoveryLeaseTTL

variable (s : Server) (now : Time) (ok : Bool)

/-- Replace the coordination file by the record in memory, or fail and leave
    it alone. -/
def saveCoordination : Node :=
  if ok then { n with disk := some n.server.toCoordinationState } else n

/-- A reservation past its deadline. A live claim and a reservation without a
    deadline never expire. -/
def claimExpired (claim : OverlayClaim) : Bool :=
  !claim.live && claim.untilAt != 0 && !decide (now < claim.untilAt)

/-- Drop expired leases and their reservations, and say whether anything was
    dropped. -/
def expireCoordination : Server × Bool :=
  ({ s with
      mutations := s.mutations.filterMap (fun _ lease =>
        if now < lease.untilAt then some lease else none)
      overlayClaims := s.overlayClaims.filterMap (fun _ claim =>
        if claimExpired now claim then none else some claim) },
    s.mutations.any (fun _ lease => !decide (now < lease.untilAt)) ||
      s.overlayClaims.any (fun _ claim => claimExpired now claim))

/-- Why a fence does not entitle its bearer to mutate the lab at this time. -/
def fenceError (lab : String) (fence : Fence) (now : Time) : Option LeaseError :=
  if lab = "" then some .mutationMustNameLab
  else if fence.token = "" ∨ fence.generation = 0 then some .fenceRequired
  else match s.mutations.lookup lab with
    | none => some (.leaseExpiredOrReleased lab)
    | some lease =>
      if ¬ now < lease.untilAt then some (.leaseExpiredOrReleased lab)
      else if lease.fence.generation ≠ fence.generation ∨ lease.fence.token ≠ fence.token then
        some (.fenceStale lab)
      else none

/-- Drop what has expired by the node's own clock. -/
def Node.expire : Node × Bool :=
  ({ n with server := (expireCoordination n.server n.now).1 },
    (expireCoordination n.server n.now).2)

/-- Check a fence the way every mutation does. The clock is read again for the
    check itself, `d` later than for the expiry. -/
def requireMutationFence (d : Time) (ok : Bool) : Node × Option LeaseError :=
  let (n, changed) := n.expire
  if changed && !ok then ({ n with now := n.now + d }, some .persistExpired)
  else
    let n := if changed then saveCoordination n ok else n
    let n := { n with now := n.now + d }
    (n, fenceError n.server lab fence n.now)

/-- Issue a lease under the next generation of the lab. The counter stays
    raised when the save fails; the lease does not stay. -/
def issueLease (lab holder token : String) (ttl : Time) : Node × Fence :=
  let generation := n.server.highWater lab + 1
  let fence : Fence := { token := token, generation := generation }
  ({ n with server := { n.server with
      fenceHighWater := n.server.fenceHighWater.insert lab generation
      mutations := n.server.mutations.insert lab
        { holder := holder, fence := fence, untilAt := n.now + ttl } } }, fence)

/-- Forget the lease of a lab. -/
def dropLease : Node :=
  { n with server := { n.server with mutations := n.server.mutations.erase lab } }

def acquireMutationLease (req : LeaseAcquireRequest) (token : Option String)
    (ok : Bool) : Node × Except LeaseError LeaseResponse :=
  if req.lab = "" then (n, .error .labRequired)
  else match token with
    | none => (n, .error .generateToken)
    | some token =>
      let n := n.expire.1
      match n.server.mutations.lookup req.lab with
      | some held =>
        match n.server.transactions.lookup req.lab with
        | some tx =>
          if tx.phase = .recovering then
            (n, .error (.alreadyLeasedRecovering req.lab held.holder held.untilAt
              tx.recoveryStrategy tx.recoveryTarget tx.recoveryProgress
              tx.recoveryDeadline))
          else (n, .error (.alreadyLeased req.lab held.holder held.untilAt))
        | none => (n, .error (.alreadyLeased req.lab held.holder held.untilAt))
      | none =>
        let (issued, fence) := issueLease n req.lab req.holder token (leaseTTL req.ttlSeconds)
        if ok then
          (saveCoordination issued true,
            .ok { lab := req.lab, fence := fence,
                  expiresAt := n.now + leaseTTL req.ttlSeconds })
        else (dropLease issued req.lab, .error .persistFenceGeneration)

/-- The fence automatic recovery takes for itself. It persists an expiry
    before it looks at the lease. -/
def acquireRecoveryFence (token : Option String)
    (expiryOk ok : Bool) : Node × Except LeaseError Fence :=
  let (n, changed) := n.expire
  if changed && !expiryOk then (n, .error .persistRecovery)
  else
    let n := if changed then saveCoordination n expiryOk else n
    match n.server.mutations.lookup lab with
    | some held => (n, .error (.stillLeased lab held.holder))
    | none =>
      match token with
      | none => (n, .error .generateToken)
      | some token =>
        let (issued, fence) := issueLease n lab "agent recovery" token n.recoveryLeaseLimit
        if ok then (saveCoordination issued true, .ok fence)
        else (dropLease issued lab, .error .persistRecovery)

/-- A reservation this fence holds for the lab. -/
def reservedBy (claim : OverlayClaim) : Bool :=
  !claim.live && claim.lab == lab && claim.generation == fence.generation

/-- Move the deadline of a lease and of the reservations made under it. -/
def extendLease (lease : ClusterLease) (deadline : Time) : Node :=
  { n with server := { n.server with
      mutations := n.server.mutations.insert lab { lease with untilAt := deadline }
      overlayClaims := n.server.overlayClaims.filterMap (fun _ claim =>
        if reservedBy lab fence claim then some { claim with untilAt := deadline }
        else some claim) } }

/-- Extend a lease and the reservations made under it. The extension stands in
    memory even when persisting it fails. -/
def renewMutationLease (req : LeaseRenewRequest) (ok : Bool) :
    Node × Except LeaseError LeaseResponse :=
  let (n, changed) := n.expire
  match fenceError n.server req.lab req.fence n.now with
  | some err => (if changed then saveCoordination n ok else n, .error err)
  | none =>
    match n.server.mutations.lookup req.lab with
    | none => (n, .error (.leaseExpiredOrReleased req.lab))
    | some lease =>
      let deadline := n.now + leaseTTL req.ttlSeconds
      let changed := changed ||
        n.server.overlayClaims.any (fun _ claim => reservedBy req.lab req.fence claim)
      let n := extendLease n req.lab req.fence lease deadline
      if changed && !ok then (n, .error .persistRenewed)
      else
        (if changed then saveCoordination n ok else n,
          .ok { lab := req.lab, fence := lease.fence, expiresAt := deadline })

/-- Forget a lease and the reservations made under it. -/
def forgetLease : Node :=
  { n with server := { n.server with
      mutations := n.server.mutations.erase lab
      overlayClaims := n.server.overlayClaims.filterMap (fun _ claim =>
        if reservedBy lab fence claim then none else some claim) } }

/-- Give a lease up with the reservations made under it. -/
def releaseMutationLease (req : LeaseReleaseRequest) (ok : Bool) : Node × Option LeaseError :=
  let (n, changed) := n.expire
  match fenceError n.server req.lab req.fence n.now with
  | some err => (if changed then saveCoordination n ok else n, some err)
  | none =>
    let changed := changed ||
      n.server.overlayClaims.any (fun _ claim => reservedBy req.lab req.fence claim)
    let n := forgetLease n req.lab req.fence
    if changed && !ok then (n, some .persistReleased)
    else (if changed then saveCoordination n ok else n, none)

/-- The canonical spelling of a transaction mode, if it is one. Only ASCII
    letters fold to the letters of the two modes. -/
def requireTransactionMode (mode : String) : Option String :=
  match Strings.toLower (Strings.trimSpace mode) with
  | "platform" => some "platform"
  | "solve" => some "solve"
  | _ => none

/-- Why a record written before modes were mandatory cannot be migrated. -/
inductive MigrationError where
  | desiredModeAbsent
  | requestedMode
  | desiredMode
  | previousTopologyMode
  | previousMode
deriving DecidableEq, Repr

/-- Fill in the desired mode of a legacy record from the requested topology. -/
def migrateDesiredMode : Except MigrationError (ApplyTransaction × Bool) :=
  if tx.mode ≠ "" then .ok (tx, false)
  else match tx.requested with
    | none => .error .desiredModeAbsent
    | some requested =>
      if requested.mode = "" then .ok ({ tx with mode := "platform", ungraded := 0 }, true)
      else match requireTransactionMode requested.mode with
        | none => .error .requestedMode
        | some mode => .ok ({ tx with mode := mode, ungraded := requested.ungraded }, true)

/-- Fill in the previous mode of a legacy record from the previous topology. -/
def migratePreviousMode (changed : Bool) : Except MigrationError (ApplyTransaction × Bool) :=
  if tx.previousMode ≠ "" then .ok (tx, changed)
  else match tx.previous with
    | some previous =>
      if previous.mode = "" then
        .ok ({ tx with previousMode := "platform", previousUngraded := 0 }, true)
      else match requireTransactionMode previous.mode with
        | none => .error .previousTopologyMode
        | some mode =>
          .ok ({ tx with previousMode := mode, previousUngraded := previous.ungraded }, true)
    | none => .ok ({ tx with previousMode := "platform", previousUngraded := 0 }, true)

/-- The compatibility bridge for records without modes. The record comes back
    as far as it was migrated when the migration is refused. -/
def migrateLegacyTransactionModes : ApplyTransaction × Except MigrationError Bool :=
  match migrateDesiredMode tx with
  | .error err => (tx, .error err)
  | .ok (tx, changed) =>
    if requireTransactionMode tx.mode = none then (tx, .error .desiredMode)
    else match migratePreviousMode tx changed with
      | .error err => (tx, .error err)
      | .ok (tx, changed) =>
        if requireTransactionMode tx.previousMode = none then (tx, .error .previousMode)
        else (tx, .ok changed)

/-- What a restarted agent makes of one persisted transaction, and whether it
    rewrote it. -/
def loadTransaction : ApplyTransaction × Bool :=
  -- A record without a phase was never safe to resume forward.
  let tx := if tx.phase = .unset then { tx with phase := .rollbackNeeded } else tx
  match migrateLegacyTransactionModes tx with
  | (tx, .ok changed) => (tx, changed)
  | (tx, .error _) => ({ tx with phase := .rollbackFailed }, true)

/-- The absolute ceiling on a disposable lab's lifetime. -/
def maxEphemeralLifetime : Time := 8 * 3600 * second

/-- Anchor a lifetime recorded before the ceiling existed. -/
def loadEphemeral (lab : String) (lease : EphemeralLease) : EphemeralLease × Bool :=
  let lease := if lease.lab = "" then { lease with lab := lab } else lease
  if lease.hardExpiresAt = 0 then
    let anchor := if lease.createdAt = 0 then now else lease.createdAt
    ({ lease with hardExpiresAt := anchor + maxEphemeralLifetime }, true)
  else (lease, false)

/-- Merge a record read from disk into memory. -/
def mergeCoordination (disk : CoordinationState) (now : Time) : Server :=
  { s with
    fenceHighWater := Table.mergeWith (fun _ held generation =>
      if generation > held.getD 0 then some generation else none)
      s.fenceHighWater disk.fenceHighWater
    overlayClaims := Table.mergeWith (fun _ _ claim => some claim)
      s.overlayClaims disk.overlayClaims
    generations := Table.mergeWith (fun _ _ state => some state)
      s.generations disk.generations
    transactions := Table.mergeWith (fun _ _ tx => some (loadTransaction tx).1)
      s.transactions disk.transactions
    ephemeral := Table.mergeWith (fun lab _ lease => some (loadEphemeral now lab lease).1)
      s.ephemeral disk.ephemeral }

/-- Whether reading the record back rewrites anything in it. -/
def migrates (disk : CoordinationState) (now : Time) : Bool :=
  disk.transactions.any (fun _ tx => (loadTransaction tx).2) ||
    disk.ephemeral.any (fun lab lease => (loadEphemeral now lab lease).2)

/-- Read the coordination file back into memory, drop what expired meanwhile,
    and persist the result if a legacy record had to be rewritten. -/
def loadCoordination : Node :=
  match n.disk with
  | none => n
  | some disk =>
    let n := { n with server := mergeCoordination n.server disk n.now }.expire.1
    if migrates disk n.now then saveCoordination n ok else n

/-- Crash and start again: memory is gone, the file is read back. -/
def restart : Node :=
  loadCoordination { n with server := initCoordination } ok

end Agent

end Twinet
