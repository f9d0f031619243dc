import Twinet.Agent.Coordination

/-!
# A Node's Part in a Cluster Transaction

What one agent does with the requests of a cluster apply: it journals a
prepared transaction, applies it, commits it, and drops the rollback material
once it is told that every node committed. Until then a recovery can take the
node back to the generation it was prepared from.

The fence every request carries belongs to one mutation lease, so a request of
this lease that reaches the agent passes the fence and a transaction found in
the journal at the start was prepared under an earlier one. Whether a request
reaches the agent, whether what the handler does inside succeeds, and whether
its answer gets back are for the environment to decide: a `Fate` says so for
one request.

Only the fields that decide the outcome are kept. The generation an inventory
is recorded under is one of them, because a node that has no committed
generation reports that one in its place.

## Main definitions

* `handlePrepare`, `handleApply`, `handleCommit`, `handleFinalize`, `handleRecover`: The
  requests of an apply.
* `inventoryStatus`: What a node reports.
* `Coherent`: The committed generation agrees with the journal.

## Theorems

* `coherent_prepare`, `coherent_apply`, `coherent_commit`, `coherent_finalize`,
  `coherent_recover`: Every request keeps the committed generation in agreement
  with the journal.
-/

namespace Twinet

namespace Agent

structure Transaction where
  generation : String
  previousGen : String
  /-- The generation the inventory was labelled with before the transaction. -/
  prestate : String
  applied : Bool
  committed : Bool
  phase : TransactionPhase
deriving DecidableEq, Repr

structure LabState where
  committed : String
  /-- The generation of the recorded inventory, if one is recorded. -/
  inventory : Option String
  tx : Option Transaction
deriving DecidableEq, Repr

section

variable (generation : String) (f : Fate) (s : LabState) (t : Transaction)

/-- Write a transaction to the journal. -/
def LabState.journal : LabState :=
  { s with tx := some t }

/-- What becomes of one request: whether it reaches the agent, whether the
    journal is written, whether everything the handler does succeeds, whether
    the inventory it observes matches the record, and whether the answer gets
    back. -/
structure Fate where
  delivered : Bool
  journals : Bool
  works : Bool
  consistent : Bool
  answered : Bool
deriving DecidableEq, Repr

/-- The journal entry of a generation that is being prepared. A transaction
    already in the journal belongs to another lease: `prepareUnder` answers a
    lease that prepares its own a second time. -/
def prepareGeneration (expected generation prestate : String) (s : LabState) : Option LabState :=
  if generation = "" then none
  else
    match s.tx with
    | some _ => none
    | none =>
      if s.committed ≠ expected then none
      else some (s.journal
        { generation := generation, previousGen := s.committed, prestate := prestate
          applied := false, committed := false, phase := .prepared })

/-- Preparing can fail after the transaction is in the journal. -/
def handlePrepare (expected generation prestate : String) (f : Fate) (s : LabState) :
    LabState × Bool :=
  if f.delivered && f.journals then
    match prepareGeneration expected generation prestate s with
    | none => (s, false)
    | some s' => (s', f.works)
  else (s, false)

def handleApply : LabState × Bool :=
  match s.tx with
  | none => (s, false)
  | some t =>
    if f.delivered && t.generation == generation then
      if f.works then (s.journal { t with applied := true, phase := .applied }, true)
      else (s.journal { t with phase := if f.journals then .rollbackNeeded else .applying },
        false)
    else (s, false)

/-- The phases from which a transaction can no longer be committed. -/
def TransactionPhase.failed : TransactionPhase → Bool
  | rollbackNeeded => true
  | recovering => true
  | rollbackFailed => true
  | _ => false

/-- The generation and the commit are recorded by one write of the journal, and
    nothing in the handler can fail after it. -/
def handleCommit : LabState × Bool :=
  match s.tx with
  | none => (s, false)
  | some t =>
    if f.delivered && t.generation == generation && t.applied && !t.phase.failed then
      if t.committed then (s, true)
      else if f.works then
        ({ committed := generation, inventory := some generation
           tx := some { t with committed := true, phase := .committed } }, true)
      else (s.journal { t with phase := .rollbackNeeded }, false)
    else (s, false)

def handleFinalize : LabState × Bool :=
  match s.tx with
  | none => (s, false)
  | some t =>
    if f.delivered && t.generation == generation && t.committed && f.works then
      ({ s with tx := none }, true)
    else (s, false)

/-- The phase a recovery status shows: the one in the journal, or whether an
    inventory is recorded at all. -/
inductive StatusPhase where
  | idle
  | committed
  | journal (phase : TransactionPhase)
deriving DecidableEq, Repr

structure RecoveryStatus where
  phase : StatusPhase
  generation : String
  previousGeneration : String
  committedPending : Bool
  consistent : Bool
deriving DecidableEq, Repr

def TransactionPhase.status : TransactionPhase → StatusPhase
  | committed => .committed
  | phase => .journal phase

/-- What the node reports, given whether the inventory it observes matches the
    one it expects. A matching inventory under an unfinished transaction is not
    a consistent generation. -/
def inventoryStatus (consistent : Bool) (s : LabState) : RecoveryStatus :=
  match s.tx with
  | some t =>
    { phase := t.phase.status, generation := t.generation
      previousGeneration := t.previousGen, committedPending := t.committed
      consistent := consistent && t.phase == .committed }
  | none =>
    match s.inventory with
    | some generation =>
      { phase := .committed
        generation := if s.committed = "" then generation else s.committed
        previousGeneration := "", committedPending := false, consistent := consistent }
    | none =>
      { phase := .idle, generation := "", previousGeneration := ""
        committedPending := false, consistent := false }

/-- The record of a completed rollback. -/
def finishRecovered : LabState :=
  { committed := t.previousGen, inventory := some t.prestate, tx := none }

/-- Undo a committed transaction in the journal, before any work starts. -/
def reopenCommitted (s : LabState) : LabState :=
  { s with
    committed := t.previousGen
    tx := some { t with committed := false, phase := .rollbackNeeded } }

/-- Recovery by rollback. A committed transaction is kept unless the
    coordinator asks for it to be abandoned. -/
def handleRecover (rollbackCommitted : Bool) (f : Fate) (s : LabState) : LabState × Bool :=
  if f.delivered then
    match s.tx with
    | none =>
      let status := inventoryStatus f.consistent s
      (s, status.consistent || status.phase == .idle)
    | some t =>
      if t.committed && !rollbackCommitted then
        if (inventoryStatus f.consistent s).consistent then (s, true)
        else (s.journal { t with phase := .rollbackFailed }, false)
      else if f.works then (finishRecovered t, true)
      else if t.committed then
        (if f.journals then reopenCommitted t s else s, false)
      else (if f.journals then s.journal { t with phase := .rollbackFailed } else s, false)
  else (s, false)

/-- The committed generation agrees with the journal: it is the transaction's
    own once that is committed and the one it was prepared from until then. -/
def Coherent : Prop :=
  ∀ t, s.tx = some t →
    t.generation ≠ "" ∧ s.committed = if t.committed then t.generation else t.previousGen

end

variable {s : LabState}

theorem coherent_of_none (h : s.tx = none) : Coherent s :=
  fun _ ht => nomatch h.symm.trans ht

theorem Coherent.journal {t t' : Transaction} (h : Coherent s) (ht : s.tx = some t)
    (hgen : t'.generation = t.generation) (hprev : t'.previousGen = t.previousGen)
    (hc : t'.committed = t.committed) : Coherent (s.journal t') := by
  intro u hu
  obtain rfl := Option.some.inj hu
  rw [hgen, hprev, hc]
  exact h t ht

variable {generation : String} {f : Fate}

/-- A new transaction comes from the committed generation. -/
theorem coherent_prepare {expected prestate : String}
    (h : Coherent s) : Coherent (handlePrepare expected generation prestate f s).1 := by
  unfold handlePrepare
  split_ifs
  · fun_cases prepareGeneration expected generation prestate s with
    | case4 hg =>
      intro t ht
      obtain rfl := Option.some.inj ht
      exact ⟨hg, rfl⟩
    | _ => exact h
  · exact h

/-- Applying changes neither. -/
theorem coherent_apply (h : Coherent s) : Coherent (handleApply generation f s).1 := by
  fun_cases handleApply generation f s with
  | case2 t htx | case3 t htx => exact h.journal htx rfl rfl rfl
  | _ => exact h

/-- A commit changes both at once. -/
theorem coherent_commit (h : Coherent s) : Coherent (handleCommit generation f s).1 := by
  fun_cases handleCommit with
  | case3 t htx hsent =>
    intro u hu
    obtain rfl := Option.some.inj hu
    simp only [Bool.and_eq_true, beq_iff_eq] at hsent
    exact ⟨(h t htx).1, hsent.1.1.2.symm⟩
  | case4 t htx => exact h.journal htx rfl rfl rfl
  | _ => exact h

/-- Without a transaction there is nothing to agree with. -/
theorem coherent_finalize (h : Coherent s) : Coherent (handleFinalize generation f s).1 := by
  fun_cases handleFinalize with
  | case2 => exact coherent_of_none rfl
  | _ => exact h

/-- A recovery goes back in both. -/
theorem coherent_recover {rollbackCommitted : Bool} (h : Coherent s) :
    Coherent (handleRecover rollbackCommitted f s).1 := by
  fun_cases handleRecover rollbackCommitted f s with
  | case3 _ t htx => exact h.journal htx rfl rfl rfl
  | case4 => exact coherent_of_none rfl
  | case5 _ t htx =>
    split_ifs
    · -- A commit taken back puts the node at the generation it came from.
      intro u hu
      obtain rfl := Option.some.inj hu
      exact ⟨(h t htx).1, rfl⟩
    · exact h
  | case6 _ t htx =>
    split_ifs
    · exact h.journal htx rfl rfl rfl
    · exact h
  | _ => exact h

end Agent

end Twinet
