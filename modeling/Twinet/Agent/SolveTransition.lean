import Twinet.Agent.Phases

/-!
# Carrying a Pruning Solve Forward

A deployment that writes the reference solution and prunes must not remove a
container nobody has read. It reads the candidates while they still hold the
students' work and journals what it preserved, and whoever finishes the job may
remove what that record covers: the commit of the same apply, or a recovery that
carries the transaction on.

The record names the generation and the fence of the attempt it was written in,
so that the record of an earlier attempt is not taken for this one's. Carrying a
transaction on makes it belong to the fence of the recovery, and the record is
not rewritten.

A node that crashes reads back what it saved last. The machine here is the one of
the phases with that added.

## Main definitions

* `solvePruneEntitlement`: What the prune of a transaction may remove.
* `recoverForward`: A recovery that carries a transaction on.
* `solves`: The phases, with crashes.
* `Described`: What is recorded about a transaction is its own.

## Theorems

* `described_run`: In every run the record of a transaction is its own.
* `commitEntitlement_eq`: What a record of its own entitles a transaction to.
* `recoverForward_cases`, `recoverForward_reaches`: How a recovery gets to its prune.
* `forward_entitled_iff`: When a recovery may prune what the record covers.
-/

namespace Twinet

namespace Agent

open Records
open Option (map_some some)

/-! ### The record and what it entitles to -/

/-- The mode a topology without one was deployed in. -/
def canonicalMode (mode : String) : String := if mode = "" then "platform" else mode

/-- The transaction writes the reference solution over students' work and removes
    containers. -/
def solvePreservationRequired (desired previous : String) (prune : Bool) : Bool :=
  prune && desired = "solve" && canonicalMode previous ≠ "solve"

/-- The record of what a node preserved before the transaction applies. -/
def preserveSolveTransition (node : String) (fence : Fence) (generation : String) (c : Contract)
    (preserved : List Deploy.OrphanPreservation) (replicated : Bool) : SolveTransition where
  lab := c.manifest.name
  node := node
  generation := generation
  fence := fence.generation
  topology := c.manifest.hash
  mode := c.mode
  ungraded := c.ungraded
  prune := c.prune
  replicated := replicated
  preserved := preserved

/-- Why a prune is refused. -/
inductive EntitlementError where
  | notPreserved
  | notAskedToPrune
  | anotherPlace (lab node : String)
  | earlierAttempt (generation : String) (fence : Nat)
  | anotherMode (mode : String) (ungraded : Int)
  | manifestChanged (topology : String)
deriving DecidableEq, Repr

/-- What the prune of a transaction may remove. Nothing is said where there is
    nothing to preserve. -/
def solvePruneEntitlement (tx : JournaledTransaction) (top : Manifest) (node desired : String) :
    Except EntitlementError (Option Deploy.OrphanPreservationSet) :=
  if solvePreservationRequired desired tx.previousMode tx.prune = false then .ok none
  else match tx.solveTransition with
    | none => .error .notPreserved
    | some record =>
      if record.prune = false then .error .notAskedToPrune
      else if record.lab ≠ top.name ∨ record.node ≠ node then
        .error (.anotherPlace record.lab record.node)
      else if record.generation ≠ tx.generation ∨ record.fence ≠ tx.fenceGeneration then
        .error (.earlierAttempt record.generation record.fence)
      else if record.mode ≠ tx.mode ∨ record.ungraded ≠ tx.ungraded then
        .error (.anotherMode record.mode record.ungraded)
      else if record.topology ≠ top.hash then .error (.manifestChanged record.topology)
      else .ok (some { preserved := record.preserved, unreadable := [], removable := [] })

/-! ### Carrying a transaction on -/

/-- What becomes of everything a recovery does on its way, saves included. -/
structure ForwardOutcomes where
  /-- The objects of a committed transaction are all there. -/
  consistent : Bool
  begun : Bool
  /-- The start is noted and the overlays are reserved. -/
  starts : Bool
  resumed : Bool
  /-- The state is captured, the plan built and what it touches noted. -/
  plans : Bool
  executes : Bool
  applied : Bool
  /-- What a commit does before it prunes. -/
  commits : Bool
  pruned : Bool
  /-- What the lab consists of once it is pruned, if that can be verified. -/
  inventory : Option Inventory
  committed : Bool
  finalized : Bool

/-- Everything up to the prune works. -/
def ForwardOutcomes.works (o : ForwardOutcomes) : Bool :=
  o.begun && o.starts && o.resumed && o.plans && o.executes && o.applied && o.commits

inductive ForwardResult where
  /-- It did not get to a prune. -/
  | unpruned
  /-- The prune was refused. -/
  | refused (err : EntitlementError)
  /-- The prune was given this, and whether the rest was done. -/
  | entitled (set : Option Deploy.OrphanPreservationSet) (done : Bool)
deriving DecidableEq, Repr

/-- What the prune at the end of a commit may remove. -/
def commitEntitlement (tx : JournaledTransaction) (node desired : String) :
    Except EntitlementError (Option Deploy.OrphanPreservationSet) :=
  if tx.prune then solvePruneEntitlement tx tx.manifest node desired else .ok none

section Forward

variable (r : Records) (now : Time) (lab node : String) (fence : Fence)

variable (tx : JournaledTransaction) (o : ForwardOutcomes)

/-- The end of the commit of a transaction that was carried on, after its prune. -/
def commitPruned : Records × Bool :=
  match o.inventory with
  | none => (r.failRecovery now lab fence tx.generation "forward commit failed", false)
  | some inventory =>
    match r.finishCommittedGeneration now lab fence tx.generation inventory o.committed with
    | (r, some _) => (r.failRecovery now lab fence tx.generation "forward commit failed", false)
    | (r, none) =>
      let (r, err) := r.finalizeCommittedGeneration now lab fence tx.generation o.finalized
      (r, err.isNone)

/-- The commit of a transaction that was carried on. -/
def commitForward : Records × ForwardResult :=
  match requireTransactionMode tx.mode, requireTransactionMode tx.previousMode with
  | some desired, some _ =>
    if o.commits = false then
      (r.failRecovery now lab fence tx.generation "forward commit failed", .unpruned)
    else match commitEntitlement tx node desired with
      | .error err =>
        (r.failRecovery now lab fence tx.generation "forward commit reported failures",
          .refused err)
      | .ok set =>
        if o.pruned = false then
          (r.failRecovery now lab fence tx.generation "forward commit reported failures",
            .entitled set false)
        else
          let (r, done) := commitPruned r now lab fence tx o
          (r, .entitled set done)
  | _, _ => (r.failRecovery now lab fence tx.generation "forward commit failed", .unpruned)

/-- Apply the desired topology of a transaction and commit it. -/
def forwardTransaction : Records × ForwardResult :=
  if tx.requested = none ∨ tx.manifest.name ≠ lab then (r, .unpruned)
  else if tx.stateProofs ≠ [] ∧ tx.stateVerified = false ∧ tx.forwardAcknowledged = false then
    (r, .unpruned)
  else if fenceError r.server lab fence now ≠ none ∨ o.starts = false then (r, .unpruned)
  else match r.resumeForward lab fence tx.generation o.resumed with
    | (r, .error _) => (r, .unpruned)
    | (r, .ok current) =>
      if o.plans = false ∨ o.executes = false then
        (r.failRecovery now lab fence tx.generation "forward recovery failed", .unpruned)
      else match r.markGenerationApplied now lab fence tx.generation o.applied with
        | (r, some _) => (r, .unpruned)
        | (r, none) => commitForward r now lab node fence current o

/-- A recovery that is not done notes that it failed. -/
def endRecovery (generation : String) : Records × ForwardResult → Records × ForwardResult
  | (r, .entitled set true) => (r, .entitled set true)
  | (r, result) => (r.failRecovery now lab fence generation "recovery failed", result)

/-- A recovery that carries the transaction of a lab on. A committed transaction
    is left for its end. -/
def recoverForward (req : RecoveryRequest) (o : ForwardOutcomes) : Records × ForwardResult :=
  match fenceError r.server lab req.fence now, r.transactions.lookup lab with
  | none, some tx =>
    if tx.committed then
      (if o.consistent then r
       else r.failRecovery now lab req.fence tx.generation "committed inventory drift",
        .unpruned)
    else match r.beginRecovery now lab req.fence tx.generation "forward" req.phaseLimit
        req.totalDeadline req.options o.begun with
      | (r, .error _) => (r, .unpruned)
      | (r, .ok tx) =>
        endRecovery now lab req.fence tx.generation
          (forwardTransaction r now lab node req.fence tx o)
  | _, _ => (r, .unpruned)

end Forward

/-! ### A node that can crash -/

/-- A node with what it saved last. -/
structure SolveNode where
  node : GenerationNode
  saved : Records

/-- A request, any request's save of everything in memory, and a crash. -/
inductive SolveAction where
  | request (a : GenerationAction)
  | save
  | restart (now : Time)

/-- What a restarted agent makes of a transaction. -/
def JournaledTransaction.reload (tx : JournaledTransaction) : JournaledTransaction :=
  { tx with toApplyTransaction := (loadTransaction tx.toApplyTransaction).1 }

/-- What a restarted agent makes of its records. The leases are gone. -/
def Records.reload (r : Records) : Records :=
  { r with
    transactions := r.transactions.filterMap fun _ tx => some tx.reload
    mutations := ∅ }

def solveStep (lab : String) (d : SolveNode) : SolveAction → SolveNode × List Moment
  | .request a =>
    ({ d with node := (generationStep lab d.node a).1 }, (generationStep lab d.node a).2)
  | .save => ({ d with saved := d.node.records }, [])
  | .restart now => ({ d with node := ⟨d.saved.reload, now, []⟩ }, [])

def solves (lab : String) : Machine SolveNode SolveAction Moment := ⟨solveStep lab⟩

/-- A node that holds no transaction. -/
def SolveNode.start (r : Records) (now : Time) : SolveNode where
  node := .start r now
  saved := (GenerationNode.start r now).records

/-- A request as its handler makes it. A topology is prepared under its own name,
    and the record is made from the transaction that was prepared. -/
def Proper (lab node : String) (d : SolveNode) : SolveAction → Prop
  | .request (.prepare _ req _) => req.manifest.name = lab
  | .request (.recordSolve fence generation record _) =>
    ∃ c preserved replicated, d.node.records.course lab = some c ∧
      record = preserveSolveTransition node fence generation c.contract preserved replicated
  | _ => True

/-- What is recorded about a transaction is its own. -/
structure Described (lab node : String) (c : Course) : Prop where
  name : c.contract.manifest.name = lab
  mode : requireTransactionMode c.contract.mode = some c.contract.mode
  previousMode : requireTransactionMode c.contract.previousMode ≠ none
  record : ∀ record, c.solve = some record → ∃ fence preserved replicated,
    record = preserveSolveTransition node fence c.generation c.contract preserved replicated

/-! ### The record is the transaction's own -/

section Run

variable {lab node : String} {c' : Course}

theorem Described.of_kept {c : Course} (h : Described lab node c)
    (hgen : c'.generation = c.generation) (hcontract : c'.contract = c.contract)
    (hsolve : c'.solve = c.solve) : Described lab node c' := by
  obtain ⟨hname, hmode, hprevious, hrecord⟩ := h
  refine ⟨hcontract ▸ hname, hcontract ▸ hmode, hcontract ▸ hprevious, fun record h => ?_⟩
  rw [hgen, hcontract]
  exact hrecord record (hsolve ▸ h)

theorem Turn.kept {d d' : GenerationNode} {a : GenerationAction} {ms : List Moment}
    (hturn : Turn lab d a d' ms) (hc' : d'.records.course lab = some c') :
    (∃ c, d.records.course lab = some c ∧ c'.generation = c.generation ∧
      c'.contract = c.contract ∧ (c'.solve = c.solve ∨
        ∃ f record ok, a = .recordSolve f c.generation record ok ∧ c'.solve = some record)) ∨
    ∃ f req ok, a = .prepare f req ok ∧ c'.contract.manifest = req.manifest ∧
      requireTransactionMode c'.contract.mode = some c'.contract.mode ∧
      requireTransactionMode c'.contract.previousMode ≠ none ∧ c'.solve = none := by
  have his : ∀ c₀, d'.records.course lab = some c₀ → c₀ = c' := fun c₀ h =>
    some.inj (h.symm.trans hc')
  cases hturn with
  | quiet hsteady | checked c hc hverified hsteady =>
    exact .inl ⟨c', hsteady.course.symm.trans hc', rfl, rfl, .inl rfl⟩
  | prepared fence generation proofs contract hnone hreq hmode hprevious h' =>
    -- only a preparation makes a new contract
    obtain ⟨f, req, ok, ha, hmanifest⟩ := hreq
    rw [← his _ h']
    exact .inr ⟨f, req, ok, ha, hmanifest, hmode, hprevious, rfl⟩
  | recorded c record hc hreq h' =>
    obtain ⟨f, ok, ha⟩ := hreq
    rw [← his _ h']
    exact .inl ⟨c, hc, rfl, rfl, .inr ⟨f, record, ok, ha, rfl⟩⟩
  | started c hc h' | applied c hc h' | verified c hc h'
  | committed c fence hc hfence happlied hmem h' | uncommitted c hc h'
  | marked c phase hfailed hc h' => exact .inl ⟨c, hc, by simp [← his _ h']⟩
  | recovers c c₁ m hm hc h' hkeeps hcontract =>
    rw [← his _ h']
    exact .inl ⟨c, hc, hkeeps.1, hcontract.1, .inl hcontract.2⟩
  | closes m hm hnone => nomatch hnone.symm.trans hc'

theorem loadTransaction_of_modes {tx : ApplyTransaction}
    (hmode : requireTransactionMode tx.mode ≠ none)
    (hprevious : requireTransactionMode tx.previousMode ≠ none) :
    ∃ phase, (loadTransaction tx).1 = { tx with phase := phase } := by
  have hempty : requireTransactionMode "" = none := by decide
  have hmode' : tx.mode ≠ "" := fun h => hmode (h ▸ hempty)
  have hprevious' : tx.previousMode ≠ "" := fun h => hprevious (h ▸ hempty)
  unfold loadTransaction
  by_cases hphase : tx.phase = .unset
  · refine ⟨.rollbackNeeded, ?_⟩
    simp [hphase, migrateLegacyTransactionModes, migrateDesiredMode, migratePreviousMode, hmode,
      hprevious, hmode', hprevious']
  · refine ⟨tx.phase, ?_⟩
    simp [hphase, migrateLegacyTransactionModes, migrateDesiredMode, migratePreviousMode, hmode,
      hprevious, hmode', hprevious']

theorem described_reload {r : Records} (h : ∀ c, r.course lab = some c → Described lab node c)
    (hc' : r.reload.course lab = some c') : Described lab node c' := by
  simp only [Records.course, Records.reload, Table.lookup_filterMap] at hc'
  cases htx : r.transactions.lookup lab with
  | none => simp [htx] at hc'
  | some tx =>
    simp only [htx, Option.bind_some, map_some, some.injEq] at hc'
    have hold := h tx.course (by simp [Records.course, htx])
    have hmode : requireTransactionMode tx.mode ≠ none := fun hnone => by
      have hvalid : requireTransactionMode tx.mode = some tx.mode := hold.mode
      rw [hnone] at hvalid
      cases hvalid
    obtain ⟨phase, hload⟩ := loadTransaction_of_modes hmode hold.previousMode
    obtain rfl : { tx.course with phase := phase } = c' := by
      rw [← hc']
      simp only [JournaledTransaction.reload, hload]
      rfl
    exact hold.of_kept rfl rfl rfl

theorem described_step {d : SolveNode} {a : SolveAction}
    (h : (∀ c, d.node.records.course lab = some c → Described lab node c) ∧
      ∀ c, d.saved.course lab = some c → Described lab node c)
    (hproper : Proper lab node d a) :
    (∀ c, (solveStep lab d a).1.node.records.course lab = some c → Described lab node c) ∧
      ∀ c, (solveStep lab d a).1.saved.course lab = some c → Described lab node c := by
  cases a with
  | save => exact ⟨h.1, h.1⟩
  | restart now => exact ⟨fun c hc => described_reload h.2 hc, h.2⟩
  | request a =>
    refine ⟨fun c' hc' => ?_, h.2⟩
    rcases (turn_of_step lab d.node a).kept hc' with
      ⟨c, hc, hgen, hcontract, hsolve⟩ |
        ⟨f, req, ok, rfl, hmanifest, hmode, hprevious, hnone⟩
    · have hold := h.1 c hc
      rcases hsolve with hsolve | ⟨f, record, ok, rfl, hsolve⟩
      · exact hold.of_kept hgen hcontract hsolve
      · obtain ⟨c₀, preserved, replicated, hc₀, hmade⟩ := hproper
        obtain rfl := some.inj (hc.symm.trans hc₀)
        refine ⟨hcontract ▸ hold.name, hcontract ▸ hold.mode, hcontract ▸ hold.previousMode,
          fun record' hrecord => ?_⟩
        obtain rfl := some.inj (hsolve.symm.trans hrecord)
        rw [hgen, hcontract]
        exact ⟨f, preserved, replicated, hmade⟩
    · refine ⟨hmanifest ▸ hproper, hmode, hprevious, fun record hrecord => ?_⟩
      rw [hnone] at hrecord
      cases hrecord

/-- Requests as handlers make them leave records of their own. -/
theorem described_run (r : Records) (now : Time) {acts : List SolveAction}
    (hproper : (solves lab).Along (Proper lab node) (.start r now) acts) {c : Course}
    (hc : ((solves lab).run (.start r now) acts).node.records.course lab = some c) :
    Described lab node c := by
  refine ((solves lab).invariant_along
    (fun d => (∀ c, d.node.records.course lab = some c → Described lab node c) ∧
      ∀ c, d.saved.course lab = some c → Described lab node c)
    (fun d a h hp => described_step h hp) ?_ hproper).1 c hc
  exact ⟨fun c hc => by simp [SolveNode.start, GenerationNode.start, Records.course] at hc,
    fun c hc => by simp [SolveNode.start, GenerationNode.start, Records.course] at hc⟩

end Run

/-! ### What a recovery may prune -/

section Entitlement

variable {lab node : String} {tx : JournaledTransaction} {record : SolveTransition}

/-- A record of its own entitles a transaction to what it covers under the fence
    it was made under, and to nothing under another. -/
theorem commitEntitlement_eq (h : Described lab node tx.course)
    (hsolve : tx.solveTransition = some record)
    (hrequired : solvePreservationRequired tx.mode tx.previousMode tx.prune = true) :
    commitEntitlement tx node tx.mode =
      if record.fence = tx.fenceGeneration then
        .ok (some { preserved := record.preserved, unreadable := [], removable := [] })
      else .error (.earlierAttempt record.generation record.fence) := by
  have hprune : tx.prune = true := by
    simp only [solvePreservationRequired, Bool.and_eq_true] at hrequired
    exact hrequired.1.1
  obtain ⟨fence, preserved, replicated, hmade⟩ := h.record record hsolve
  have hrecord : record.prune = true ∧ record.lab = tx.manifest.name ∧ record.node = node ∧
      record.generation = tx.generation ∧ record.mode = tx.mode ∧
      record.ungraded = tx.ungraded ∧ record.topology = tx.manifest.hash := by
    rw [hmade]
    exact ⟨hprune, rfl, rfl, rfl, rfl, rfl, rfl⟩
  obtain ⟨hp, hlab, hnode, hgen, hmode, hungraded, htopology⟩ := hrecord
  rw [commitEntitlement, if_pos hprune]
  by_cases hfence : record.fence = tx.fenceGeneration
  · simp [solvePruneEntitlement, hrequired, hsolve, hp, hlab, hnode, hgen, hmode, hungraded,
      htopology, hfence]
  · simp [solvePruneEntitlement, hrequired, hsolve, hp, hlab, hnode, hgen, hfence]

end Entitlement

section Recover

variable {r : Records} {now : Time} {lab node : String}

theorem commitForward_cases (r : Records) (now : Time) (lab node : String) (fence : Fence)
    (tx : JournaledTransaction) (o : ForwardOutcomes) :
    (commitForward r now lab node fence tx o).2 = .unpruned ∨
    ∃ desired, requireTransactionMode tx.mode = some desired ∧
      match commitEntitlement tx node desired with
      | .error err => (commitForward r now lab node fence tx o).2 = .refused err
      | .ok set => ∃ done, (commitForward r now lab node fence tx o).2 = .entitled set done := by
  unfold commitForward
  cases hmode : requireTransactionMode tx.mode with
  | none => exact .inl rfl
  | some desired =>
    cases hprevious : requireTransactionMode tx.previousMode with
    | none => exact .inl rfl
    | some previous =>
      by_cases hcommits : o.commits = false
      · exact .inl (by simp [if_pos hcommits])
      · simp only [if_neg hcommits]
        refine .inr ⟨desired, rfl, ?_⟩
        cases commitEntitlement tx node desired with
        | error err => rfl
        | ok set =>
          by_cases hpruned : o.pruned = false
          · exact ⟨false, by simp only [if_pos hpruned]⟩
          · exact ⟨(commitPruned r now lab fence tx o).2, by simp only [if_neg hpruned]⟩

theorem forwardTransaction_cases (r : Records) (now : Time) (lab node : String) (fence : Fence)
    (tx : JournaledTransaction) (o : ForwardOutcomes) :
    (forwardTransaction r now lab node fence tx o).2 = .unpruned ∨
    ∃ held current r', r.transactions.lookup lab = some held ∧
      current.course = { held.course with fence := fence.generation, phase := .applying } ∧
      forwardTransaction r now lab node fence tx o =
        commitForward r' now lab node fence current o := by
  fun_cases forwardTransaction r now lab node fence tx o with
  | case7 _ _ _ r₁ current hresume _ r' =>
    rcases r.resumeForward_cases lab fence tx.generation o.resumed with
      ⟨err, -, heq⟩ | ⟨held, tx', hheld, hcourse, -, heq⟩
    · cases heq.symm.trans hresume
    · rw [heq] at hresume
      cases hok : o.resumed with
      | false => simp [hok] at hresume
      | true =>
        rw [hok] at hresume
        cases hresume
        exact .inr ⟨held, current, r', hheld, hcourse, rfl⟩
  | _ => exact .inl rfl

theorem endRecovery_result (fence : Fence) (generation : String) (p : Records × ForwardResult) :
    (endRecovery now lab fence generation p).2 = p.2 := by
  unfold endRecovery
  split
  · rfl
  · rfl

/-- A recovery that prunes has carried a transaction on. -/
theorem recoverForward_cases (r : Records) (now : Time) (lab node : String)
    (req : RecoveryRequest) (o : ForwardOutcomes) :
    (recoverForward r now lab node req o).2 = .unpruned ∨
    ∃ tx current r', r.transactions.lookup lab = some tx ∧
      current.course = { tx.course with fence := req.fence.generation, phase := .applying } ∧
      (recoverForward r now lab node req o).2 =
        (commitForward r' now lab node req.fence current o).2 := by
  fun_cases recoverForward r now lab node req o with
  | case3 tx htx _ _ r₁ begun hbegin =>
    -- the one case in which the recovery is journaled
    rcases r.beginRecovery_cases now lab req.fence tx.generation "forward" req.phaseLimit
      req.totalDeadline req.options o.begun with
      ⟨err, -, heq⟩ | ⟨tx₀, tx', htx₀, hbegun, -, heq⟩
    · cases heq.symm.trans hbegin
    obtain rfl := some.inj (htx.symm.trans htx₀)
    rw [heq] at hbegin
    cases hok : o.begun with
    | false => simp [hok] at hbegin
    | true =>
      rw [hok] at hbegin
      cases hbegin
      rw [endRecovery_result]
      rcases forwardTransaction_cases (r.journal lab begun) now lab node req.fence
        begun o with hnone | ⟨held, current, r', hheld, hcourse, hforward⟩
      · exact .inl hnone
      · rw [journal, AList.lookup_insert] at hheld
        cases hheld
        refine .inr ⟨tx, current, r', htx, ?_, by rw [hforward]⟩
        rw [hcourse, hbegun]
  | _ => exact .inl rfl

/-- Nothing keeps a recovery from its prune: the fence passes, the transaction can
    be recovered and read, and what the recovery does on its way works. -/
structure Undisturbed (r : Records) (now : Time) (lab : String) (req : RecoveryRequest)
    (tx : JournaledTransaction) (o : ForwardOutcomes) : Prop where
  passes : fenceError r.server lab req.fence now = none
  uncommitted : tx.committed = false
  begins : recoveryRefusal now lab tx.generation "forward" req.options tx = none
  readable : tx.requested ≠ none
  works : o.works = true

variable {tx : JournaledTransaction}

theorem acknowledged_of_begins {generation : String} {options : RecoveryRunOptions}
    (h : recoveryRefusal now lab generation "forward" options tx = none) :
    (tx.forwardAcknowledged || options.forwardAcknowledged) = true := by
  unfold recoveryRefusal at h
  split_ifs at h with _ _ _ _ _ _ hnot
  by_contra hneither
  rw [Bool.not_eq_true, Bool.or_eq_false_iff] at hneither
  exact hnot ⟨rfl, hneither.2, hneither.1⟩

variable {o : ForwardOutcomes} {fence : Fence}

theorem commitForward_reaches (hdescribed : Described lab node tx.course)
    (hcommits : o.commits = true) : (commitForward r now lab node fence tx o).2 ≠ .unpruned := by
  have hmode : requireTransactionMode tx.mode = some tx.mode := hdescribed.mode
  obtain ⟨previous, hprevious⟩ := Option.ne_none_iff_exists'.mp hdescribed.previousMode
  have hprevious' : requireTransactionMode tx.previousMode = some previous := hprevious
  simp only [commitForward, hmode, hprevious', hcommits, Bool.true_eq_false, if_false]
  cases commitEntitlement tx node tx.mode with
  | error err => simp
  | ok set => by_cases hpruned : o.pruned = false <;> simp [hpruned]

theorem forwardTransaction_reaches (htx : r.transactions.lookup lab = some tx)
    (hdescribed : Described lab node tx.course)
    (hpasses : fenceError r.server lab fence now = none) (hreadable : tx.requested ≠ none)
    (hacknowledged : tx.forwardAcknowledged = true) (hworks : o.works = true) :
    (forwardTransaction r now lab node fence tx o).2 ≠ .unpruned := by
  simp only [ForwardOutcomes.works, Bool.and_eq_true] at hworks
  obtain ⟨⟨⟨⟨⟨⟨-, hstarts⟩, hresumed⟩, hplans⟩, hexecutes⟩, happlied⟩, hcommits⟩ := hworks
  obtain ⟨current, hcurrent⟩ : ∃ current : JournaledTransaction, current = { tx with
    fenceGeneration := fence.generation, phase := .applying, failure := "" } := ⟨_, rfl⟩
  have hresume : r.resumeForward lab fence tx.generation o.resumed =
      (r.journal lab current, .ok current) := by
    simp [resumeForward, htx, hresumed, hcurrent]
  -- the transaction now belongs to the fence, so that it can be noted as applied
  have howned : Owned (r.journal lab current) now lab fence tx.generation current :=
    ⟨hpasses, AList.lookup_insert _, by rw [hcurrent], by rw [hcurrent]⟩
  obtain ⟨r', hnoted⟩ : ∃ r', (r.journal lab current).markGenerationApplied now lab fence
      tx.generation o.applied = (r', none) := by
    rw [markGenerationApplied, amend_owned howned rfl, happlied]
    exact ⟨_, rfl⟩
  have hname : tx.manifest.name = lab := hdescribed.name
  simp only [forwardTransaction, hreadable, hname, hacknowledged, hpasses, hstarts, hresume,
    hplans, hexecutes, hnoted, ne_eq, not_true_eq_false, or_self, and_false, Bool.true_eq_false,
    if_false]
  refine commitForward_reaches ?_ hcommits
  rw [hcurrent]
  exact hdescribed.of_kept rfl rfl rfl

/-- An undisturbed recovery gets to its prune. -/
theorem recoverForward_reaches {req : RecoveryRequest} (htx : r.transactions.lookup lab = some tx)
    (hdescribed : Described lab node tx.course) (h : Undisturbed r now lab req tx o) :
    (recoverForward r now lab node req o).2 ≠ .unpruned := by
  obtain ⟨begun, hbegun⟩ : ∃ begun, begun = begunRecovery now "forward" req.phaseLimit
    req.totalDeadline req.options tx := ⟨_, rfl⟩
  have hsaved : o.begun = true := by
    have hworks := h.works
    simp only [ForwardOutcomes.works, Bool.and_eq_true] at hworks
    exact hworks.1.1.1.1.1.1
  have hbegin : r.beginRecovery now lab req.fence tx.generation "forward" req.phaseLimit
      req.totalDeadline req.options o.begun = (r.journal lab begun, .ok begun) := by
    simp [beginRecovery, h.passes, htx, h.begins, hsaved, hbegun]
  have hacknowledged : begun.forwardAcknowledged = true := by
    rw [hbegun, ← acknowledged_of_begins h.begins]
    simp [begunRecovery]
  simp only [recoverForward, h.passes, htx, h.uncommitted, Bool.false_eq_true, if_false, hbegin,
    endRecovery_result]
  refine forwardTransaction_reaches (AList.lookup_insert _) ?_ h.passes ?_ hacknowledged h.works
  · rw [hbegun]
    exact hdescribed.of_kept rfl rfl rfl
  · rw [hbegun]
    exact h.readable

end Recover

/-- A recovery that gets to the prune of a solve may remove what the record of the
    transaction covers if it runs under the fence the record was made under. Under
    a newer one it is refused, and it is never given anything else. -/
theorem forward_entitled_iff (lab node : String) (r : Records) (now : Time)
    {acts : List SolveAction}
    (hproper : (solves lab).Along (Proper lab node) (.start r now) acts)
    {tx : JournaledTransaction} {record : SolveTransition}
    (htx : ((solves lab).run (.start r now) acts).node.records.transactions.lookup lab = some tx)
    (hsolve : tx.solveTransition = some record)
    (hrequired : solvePreservationRequired tx.mode tx.previousMode tx.prune = true)
    (req : RecoveryRequest) (o : ForwardOutcomes) :
    let d := ((solves lab).run (.start r now) acts).node
    let result := (recoverForward d.records d.now lab node req o).2
    (Undisturbed d.records d.now lab req tx o → result ≠ .unpruned) ∧
    (result ≠ .unpruned →
      ((∃ done, result = .entitled (some
          { preserved := record.preserved, unreadable := [], removable := [] }) done) ↔
        req.fence.generation = record.fence) ∧
      (req.fence.generation ≠ record.fence →
        result = .refused (.earlierAttempt record.generation record.fence))) := by
  intro d result
  have hdescribed : Described lab node tx.course :=
    described_run r now hproper (by simp [Records.course, htx])
  refine ⟨fun h => recoverForward_reaches htx hdescribed h, fun hreached => ?_⟩
  rcases recoverForward_cases d.records d.now lab node req o with
    hnot | ⟨tx', current, r', htx', hcourse, hresult⟩
  · exact absurd hnot hreached
  obtain rfl := some.inj (htx.symm.trans htx')
  have hcontract : current.contract = tx.contract := congrArg Course.contract hcourse
  have hcurrent : Described lab node current.course := by
    rw [hcourse]
    exact hdescribed.of_kept rfl rfl rfl
  have hrequired' :
      solvePreservationRequired current.mode current.previousMode current.prune = true := by
    rw [← hrequired]
    exact congrArg (fun c : Contract => solvePreservationRequired c.mode c.previousMode c.prune)
      hcontract
  have hentitled := commitEntitlement_eq hcurrent
    ((congrArg Course.solve hcourse).trans hsolve) hrequired'
  rw [show current.fenceGeneration = req.fence.generation from congrArg Course.fence hcourse]
    at hentitled
  rw [show result = _ from hresult] at hreached ⊢
  rcases commitForward_cases r' d.now lab node req.fence current o with
    hnot | ⟨desired, hdesired, hcases⟩
  · exact absurd hnot hreached
  obtain rfl : current.mode = desired := some.inj (hcurrent.mode.symm.trans hdesired)
  -- the fence of the record decides
  rw [hentitled] at hcases
  by_cases hfence : record.fence = req.fence.generation
  · rw [if_pos hfence] at hcases
    exact ⟨iff_of_true hcases hfence.symm, fun hne => absurd hfence.symm hne⟩
  · rw [if_neg hfence] at hcases
    refine ⟨iff_of_false ?_ (Ne.symm hfence), fun _ => hcases⟩
    rintro ⟨done, h⟩
    rw [show _ = _ from hcases] at h
    cases h

/-- The lab of `Records.sampleRequest` is to hold the reference solution, and a
    container is to go. -/
def solveRequest : PrepareRequest :=
  { sampleRequest with
    requested := some { mode := "solve", ungraded := 0 }, mode := "solve", prune := true }

def solveTransaction : JournaledTransaction :=
  solveRequest.transaction sampleFence "solve" "g1"

/-- What was preserved of the container. -/
def solveRecord : SolveTransition :=
  preserveSolveTransition "node1" sampleFence "g2" solveTransaction.contract
    [{ container := "as1_R9", device := "as1/R9", stored := true }] true

/-- The generation is prepared and what was preserved is recorded. -/
def solvePrepared : List SolveAction :=
  [.request (.prepare sampleFence solveRequest true),
    .request (.recordSolve sampleFence "g2" solveRecord true), .save]

/-- The apply starts, and the lab is recovered under the same lease. -/
def solveInterrupted : List SolveAction :=
  solvePrepared ++ [.request (.applyStart sampleFence "g2" true)]

def laterFence : Fence := { token := "b", generation := 2 }

/-- The node crashes, and the lab is recovered under another lease. -/
def solveCrashed : List SolveAction :=
  solvePrepared ++ [.restart 0, .request (.leases ((∅ : Table String ClusterLease).insert "lab"
    { holder := "recover", fence := laterFence, untilAt := 90 * second }) 0)]

/-- A recovery in which everything works. -/
def smoothly : ForwardOutcomes where
  consistent := true
  begun := true
  starts := true
  resumed := true
  plans := true
  executes := true
  applied := true
  commits := true
  pruned := true
  inventory := some { solveRequest.prestate with generation := "g2" }
  committed := true
  finalized := true

def recoveryUnder (fence : Fence) : RecoveryRequest where
  fence := fence
  phaseLimit := 60 * second
  totalDeadline := 600 * second
  options := { takeover := false, forwardAcknowledged := true }

theorem solveInterrupted_proper :
    (solves "lab").Along (Proper "lab" "node1") (.start (sampleRecords none) 0)
      solveInterrupted :=
  ⟨rfl, ⟨solveTransaction.course, _, _, by decide +kernel, rfl⟩, trivial, trivial, trivial⟩

/-- Under the lease of the apply the recovery may remove what was preserved. -/
theorem entitled_under_same_lease :
    let d := ((solves "lab").run (.start (sampleRecords none) 0) solveInterrupted).node
    ∃ done, (recoverForward d.records d.now "lab" "node1" (recoveryUnder sampleFence)
      smoothly).2 = .entitled (some
        { preserved := solveRecord.preserved, unreadable := [], removable := [] }) done := by
  have htx : ((solves "lab").run (.start (sampleRecords none) 0)
      solveInterrupted).node.records.transactions.lookup "lab" = some { solveTransaction with
        solveTransition := some solveRecord, phase := .applying } := by decide +kernel
  have h := forward_entitled_iff "lab" "node1" (sampleRecords none) 0
    solveInterrupted_proper htx rfl (by decide +kernel) (recoveryUnder sampleFence)
    smoothly
  exact (h.2 (h.1 ⟨by decide +kernel, rfl, by decide +kernel, by decide +kernel, rfl⟩)).1.mpr rfl

/-- After a crash the record is there, and the recovery under the next lease is
    refused as if the record were an earlier attempt's. -/
theorem refused_under_next_lease :
    let d := ((solves "lab").run (.start (sampleRecords none) 0) solveCrashed).node
    (solves "lab").Along (Proper "lab" "node1") (.start (sampleRecords none) 0)
        solveCrashed ∧
      (d.records.course "lab").map (·.solve) = some (some solveRecord) ∧
      (recoverForward d.records d.now "lab" "node1" (recoveryUnder laterFence) smoothly).2 =
        .refused (.earlierAttempt "g2" 1) :=
  ⟨⟨rfl, ⟨solveTransaction.course, _, _, by decide +kernel, rfl⟩, trivial, trivial, trivial,
      trivial⟩,
    by decide +kernel, by decide +kernel⟩

end Agent

end Twinet
