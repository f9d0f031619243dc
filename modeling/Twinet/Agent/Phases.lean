import Twinet.Agent.Generation
import Twinet.Lib.Machine

/-!
# The Course of a Transaction

What the phases of a transaction come to over a whole run of requests, for one
lab of one node.

A commit checks the transaction when its handler starts and records the
generation when it is done, and other requests are served in between, so it is
two actions. Between any two actions the leases of the node may become anything
at all: nothing here rests on which fences pass, only on what the functions do
with one that does.

The history of a run says what was recorded and when. A transaction's part of it
begins where it was prepared and ends where it was finalized, taken back or
destroyed. What the records say about a transaction can be found in its part of
the history, and this is what the guards of the later functions rely on.

## Main definitions

* `generations`: The requests for a lab as a machine whose observations are its history.
* `Turn`: All that one action can do.
* `Chapter`: The part of the history a transaction has had so far.
* `Chronicle`: The records agree with the history.

## Theorems

* `turn_of_step`: An action takes such a turn.
* `chronicle_run`: The records agree with the history.
* `phase_discipline`: What transactions do in every run.
-/

namespace Twinet

namespace Agent

open List
open Option (isNone map_some some)

/-! ### The machine -/

/-- A node as far as the generations of a lab go. Of the commits in progress it
    knows the fence and the generation they were checked for. -/
structure GenerationNode where
  records : Records
  now : Time
  committing : List (Fence × String)

/-- The requests and what becomes of the save each of them makes. -/
inductive GenerationAction where
  | leases (mutations : Table String ClusterLease) (now : Time)
  | prepare (fence : Fence) (req : PrepareRequest) (ok : Bool)
  | recordSolve (fence : Fence) (generation : String) (record : SolveTransition) (ok : Bool)
  | recordTouched (fence : Fence) (generation : String) (vnis : List Nat) (known ok : Bool)
  | applyStart (fence : Fence) (generation : String) (ok : Bool)
  | applyFinish (fence : Fence) (generation : String) (ok : Bool)
  | stateVerify (fence : Fence) (generation : String) (ok : Bool)
  | commitBegin (fence : Fence) (generation : String)
  | commitEnd (fence : Fence) (generation : String) (inventory : Option Inventory) (ok : Bool)
  | finalize (fence : Fence) (generation : String) (ok : Bool)
  | rollbackNeeded (fence : Fence) (generation failure : String) (ok : Bool)
  | rollbackFailed (fence : Fence) (generation failure : String) (ok : Bool)
  | reopen (fence : Fence) (generation : String) (ok : Bool)
  | beginRecovery (fence : Fence) (generation strategy : String) (phaseLimit totalDeadline : Time)
      (options : RecoveryRunOptions) (ok : Bool)
  | resumeForward (fence : Fence) (generation : String) (ok : Bool)
  | commitForward (fence : Fence) (generation : String) (inventory : Option Inventory) (ok : Bool)
  | finishRecovered (fence : Fence) (generation : String) (ok : Bool)
  | destroy (fence : Fence) (ok : Bool)

/-- What is recorded about the lab. The last six are the work of a recovery or of
    a destroy. -/
inductive Moment where
  | prepared (fence : Nat) (expected generation : String) (proofs : List String)
  | started (fence : Nat) (generation : String)
  | applied (fence : Nat) (generation : String)
  | verified (fence : Nat) (generation : String)
  /-- A commit begins. -/
  | checked (fence : Nat) (generation : String)
  | committed (fence : Nat) (generation : String)
  | marked (phase : TransactionPhase)
  | finalized
  /-- The committed generation is set back, and the transaction stays. -/
  | returned (committed : String)
  | begun
  | resumed
  /-- A recovery commits. -/
  | carried (generation : String)
  | recovered (committed : String)
  | destroyed
deriving DecidableEq, Repr

variable {m : Moment}

namespace Moment

/-- A transaction begins. -/
def opens : Moment → Bool
  | prepared _ _ _ _ => true
  | _ => false

/-- The transaction is gone. -/
def closes : Moment → Bool
  | finalized => true
  | recovered _ => true
  | destroyed => true
  | _ => false

/-- A recovery is at work. -/
def recovers : Moment → Bool
  | returned _ => true
  | begun => true
  | resumed => true
  | carried _ => true
  | _ => false

/-- The committed generation afterwards. -/
def commits (before : String) : Moment → String
  | committed _ generation => generation
  | carried generation => generation
  | returned previous => previous
  | recovered previous => previous
  | destroyed => ""
  | _ => before

theorem exists_of_opens (h : m.opens = true) : ∃ f e g p, m = .prepared f e g p := by
  cases m with
  | prepared f e g p => exact ⟨f, e, g, p, rfl⟩
  | _ => cases h

theorem opens_of_closes (h : m.closes = true) : m.opens = false := by
  cases m with
  | prepared => cases h
  | _ => rfl

theorem apart_of_recovers (h : m.recovers = true) :
    m.opens = false ∧ m.closes = false ∧ ∀ f g, m ≠ .checked f g := by
  cases m with
  | returned | begun | resumed | carried => exact ⟨rfl, rfl, nofun⟩
  | _ => cases h

theorem commits_eq (hcloses : m.closes = false) (hrecovers : m.recovers = false)
    (hcommitted : ∀ f g, m ≠ .committed f g) (before : String) : m.commits before = before := by
  cases m with
  | committed f g => exact absurd rfl (hcommitted f g)
  | returned | carried => cases hrecovers
  | recovered | destroyed => cases hcloses
  | _ => rfl

end Moment

/-- The committed generation by the history, and by what it was at first. -/
def committedBy (first : String) (history : List Moment) : String :=
  history.foldl Moment.commits first

/-- Something was written, saved or not. -/
def written : Option GenerationError → Bool
  | none => true
  | some .persist => true
  | some _ => false

def writtenIf {α : Type} : Except GenerationError α → Bool
  | .ok _ => true
  | .error err => written (some err)

/-- The node after a function returned, with what was recorded if it wrote. -/
def GenerationNode.after (d : GenerationNode) (r : Records) (wrote : Bool) (m : Moment) :
    GenerationNode × List Moment :=
  ({ d with records := r }, if wrote then [m] else [])

/-- One request for the lab. -/
def generationStep (lab : String) (d : GenerationNode) :
    GenerationAction → GenerationNode × List Moment
  | .leases mutations now =>
    ({ d with records := { d.records with mutations := mutations }, now := now }, [])
  | .prepare fence req ok =>
    let (r, err) := d.records.prepareGeneration d.now lab fence req ok
    -- The same request again records nothing.
    d.after r (err.isNone && (d.records.transactions.lookup lab).isNone)
      (.prepared fence.generation req.expected req.generation req.stateProofs)
  | .recordSolve fence generation record ok =>
    ({ d with records :=
        (d.records.recordGenerationSolveTransition d.now lab fence generation record ok).1 }, [])
  | .recordTouched fence generation vnis known ok =>
    ({ d with records :=
        (d.records.recordGenerationTouched d.now lab fence generation vnis known ok).1 }, [])
  | .applyStart fence generation ok =>
    let (r, err) := d.records.markGenerationApplying d.now lab fence generation ok
    d.after r (written err) (.started fence.generation generation)
  | .applyFinish fence generation ok =>
    let (r, err) := d.records.markGenerationApplied d.now lab fence generation ok
    d.after r (written err) (.applied fence.generation generation)
  | .stateVerify fence generation ok =>
    let (r, err) := d.records.markStateVerified d.now lab fence generation ok
    d.after r (written err) (.verified fence.generation generation)
  | .commitBegin fence generation =>
    match d.records.transactionForCommit d.now lab fence generation with
    | .error _ => (d, [])
    | .ok tx =>
      -- A commit of a committed generation is answered at once.
      if tx.committed then (d, [])
      else ({ d with committing := (fence, generation) :: d.committing },
        [.checked fence.generation generation])
  | .commitEnd fence generation inventory ok =>
    if (fence, generation) ∈ d.committing then
      let (r, err) :=
        d.records.finishCommittedGeneration d.now lab fence generation inventory ok
      GenerationNode.after { d with committing := d.committing.erase (fence, generation) } r
        err.isNone (.committed fence.generation generation)
    else (d, [])
  | .finalize fence generation ok =>
    let (r, err) := d.records.finalizeCommittedGeneration d.now lab fence generation ok
    d.after r err.isNone .finalized
  | .rollbackNeeded fence generation failure ok =>
    let (r, err) :=
      d.records.markTransactionPhase d.now lab fence generation .rollbackNeeded failure ok
    d.after r (written err) (.marked .rollbackNeeded)
  | .rollbackFailed fence generation failure ok =>
    let (r, err) :=
      d.records.markTransactionPhase d.now lab fence generation .rollbackFailed failure ok
    d.after r (written err) (.marked .rollbackFailed)
  | .reopen fence generation ok =>
    let (r, result) := d.records.reopenCommittedTransaction d.now lab fence generation ok
    -- A transaction that is not committed is left as it is.
    d.after r (result.isOk && (d.records.transactions.lookup lab).any (·.committed))
      (.returned (r.generation lab).committed)
  | .beginRecovery fence generation strategy phaseLimit totalDeadline options ok =>
    let (r, result) := d.records.beginRecovery d.now lab fence generation strategy phaseLimit
      totalDeadline options ok
    d.after r (writtenIf result) .begun
  | .resumeForward fence generation ok =>
    let (r, result) := d.records.resumeForward lab fence generation ok
    d.after r (writtenIf result) .resumed
  | .commitForward fence generation inventory ok =>
    let (r, err) :=
      d.records.finishCommittedGeneration d.now lab fence generation inventory ok
    d.after r err.isNone (.carried generation)
  | .finishRecovered fence generation ok =>
    let (r, err) := d.records.finishRecoveredGeneration d.now lab fence generation ok
    d.after r (written err)
      (if ok then .recovered (r.generation lab).committed
       else .returned (r.generation lab).committed)
  | .destroy fence ok =>
    let (r, err) := d.records.finishDestroyedLab d.now lab fence ok
    d.after r err.isNone .destroyed

/-- The requests for a lab as a machine whose observations are the history. -/
def generations (lab : String) : Machine GenerationNode GenerationAction Moment :=
  ⟨generationStep lab⟩

/-- A node that holds no transaction, whatever else it has recorded. -/
def GenerationNode.start (r : Records) (now : Time) : GenerationNode where
  records := { r with transactions := ∅ }
  now := now
  committing := []

/-! ### What the functions come to -/

/-- What a transaction was asked for. Nothing rewrites it. -/
structure Contract where
  manifest : Manifest
  mode : String
  ungraded : Int
  previousMode : String
  prune : Bool
deriving DecidableEq, Repr

/-- What a transaction remembers of the lab before it. -/
structure Origin where
  generation : String
  previousGen : String
  prestate : Inventory

def JournaledTransaction.origin (tx : JournaledTransaction) : Origin where
  generation := tx.generation
  previousGen := tx.previousGen
  prestate := tx.prestate

/-- What the records say about a transaction. -/
structure Course where
  generation : String
  expected : String
  fence : Nat
  proofs : List String
  applied : Bool
  verified : Bool
  phase : TransactionPhase
  contract : Contract
  solve : Option SolveTransition
deriving DecidableEq, Repr

def JournaledTransaction.contract (tx : JournaledTransaction) : Contract where
  manifest := tx.manifest
  mode := tx.mode
  ungraded := tx.ungraded
  previousMode := tx.previousMode
  prune := tx.prune

def JournaledTransaction.course (tx : JournaledTransaction) : Course where
  generation := tx.generation
  expected := tx.expected
  fence := tx.fenceGeneration
  proofs := tx.stateProofs
  applied := tx.applied
  verified := tx.stateVerified
  phase := tx.phase
  contract := tx.contract
  solve := tx.solveTransition

theorem requireTransactionMode_idem {mode desired : String}
    (h : requireTransactionMode mode = some desired) :
    requireTransactionMode desired = some desired := by
  unfold requireTransactionMode at h
  split at h
  · cases h
    decide
  · cases h
    decide
  · cases h

theorem PrepareRequest.desiredMode_valid (req : PrepareRequest) {desired : String}
    (h : req.desiredMode = .ok desired) : requireTransactionMode desired = some desired := by
  revert h
  fun_cases PrepareRequest.desiredMode req with
  | case7 _ mode hmode =>
    rintro ⟨⟩
    exact requireTransactionMode_idem hmode
  | _ => nofun

variable {ok : Bool} {write : JournaledTransaction → JournaledTransaction}
  {refusal : GenerationError} {ready : JournaledTransaction → Bool}

namespace Records

section

variable (r : Records) (lab : String)

def course : Option Course :=
  (r.transactions.lookup lab).map JournaledTransaction.course

def committed : String := (r.generation lab).committed

@[simp]
theorem course_journal (tx : JournaledTransaction) :
    (r.journal lab tx).course lab = some tx.course := by
  simp [journal, course]

end

theorem written_saved (ok : Bool) : written (if ok then none else some .persist) = true := by
  cases ok <;> rfl

theorem writtenIf_saved {α : Type} (ok : Bool) (a : α) :
    writtenIf (if ok then .ok a else .error .persist) = true := by
  cases ok <;> rfl

section Cases

variable (r : Records) (now : Time) (lab : String) (fence : Fence) (generation : String)
  {tx : JournaledTransaction}

variable {r now lab fence generation} in
theorem Owned.course (h : Owned r now lab fence generation tx) : r.course lab = some tx.course := by
  rw [Records.course, h.lookup, map_some]

variable {r now lab fence generation} in
theorem amend_owned (h : Owned r now lab fence generation tx) (hready : ready tx = true) :
    amend r now lab fence generation ready refusal write ok =
      (r.journal lab (write tx), if ok then none else some .persist) := by
  simp [amend, h.passes, h.lookup, h.generation, h.own, hready]

theorem amend_cases (ready : JournaledTransaction → Bool) (hrefusal : refusal ≠ .persist)
    (write : JournaledTransaction → JournaledTransaction) (ok : Bool) :
    (∃ err, written (some err) = false ∧
      amend r now lab fence generation ready refusal write ok = (r, some err)) ∨
    ∃ tx, Owned r now lab fence generation tx ∧ ready tx = true ∧
      amend r now lab fence generation ready refusal write ok =
        (r.journal lab (write tx), if ok then none else some .persist) := by
  have hwritten : written (some refusal) = false := by
    cases refusal <;> first | rfl | exact absurd rfl hrefusal
  fun_cases amend r now lab fence generation ready refusal write ok with
  | case1 err => exact .inl ⟨.lease err, rfl, rfl⟩
  | case2 | case3 => exact .inl ⟨refusal, hwritten, rfl⟩
  | case4 hfence tx htx hown =>
    push Not at hown
    exact .inr ⟨tx, ⟨hfence, htx, hown.1, hown.2.1⟩, Bool.ne_false_iff.mp hown.2.2, rfl⟩

/-- Two states with the same transaction and the same lineage of the lab. -/
structure Alike (lab : String) (r' r : Records) : Prop where
  transaction : r'.transactions.lookup lab = r.transactions.lookup lab
  committed : (r'.generation lab).committed = (r.generation lab).committed
  ancestors : (r'.generation lab).ancestors = (r.generation lab).ancestors
  inventory : r'.inventories.lookup lab = r.inventories.lookup lab
  overlays : r'.overlayLineage.lookup lab = r.overlayLineage.lookup lab

variable {r lab} in
theorem Alike.refl : Alike lab r r := ⟨rfl, rfl, rfl, rfl, rfl⟩

/-- A function reports that it wrote nothing and leaves what the lab has, or it
    ends in one of the states given. -/
def Leaves {α : Type} (wrote : α → Bool) (done : Records → Prop) (out : Records × α) : Prop :=
  (Alike lab out.1 r ∧ wrote out.2 = false) ∨ (wrote out.2 = true ∧ done out.1)

theorem prepareGeneration_cases (req : PrepareRequest) (ok : Bool) :
    r.Leaves lab (fun err => err.isNone && (r.transactions.lookup lab).isNone)
      (fun r' => ∃ desired, r.transactions.lookup lab = none ∧ r.committed lab = req.expected ∧
        req.desiredMode = .ok desired ∧ requireTransactionMode req.previousMode.1 ≠ none ∧
        r' = { r with
          transactions := r.transactions.insert lab (req.transaction fence desired req.expected)
          generations := r.generations.insert lab
            { r.generation lab with prepared := req.generation } })
      (prepareGeneration r now lab fence req ok) := by
  fun_cases prepareGeneration r now lab fence req ok with
  | case3 _ _ _ tx htx => exact .inl ⟨.refl, by simp [htx]⟩
  | case7 desired hdesired _ state hnone hexpected hmode =>
    have hcommitted := not_not.mp hexpected
    exact .inr ⟨by simp [hnone], desired, hnone, hcommitted, hdesired, hmode,
      by rw [← hcommitted]⟩
  | case8 desired _ _ state hnone =>
    refine .inl ⟨⟨?_, ?_, ?_, rfl, rfl⟩, rfl⟩
    · simp [hnone]
    · simp [Records.generation, state]
    · simp [Records.generation, state]
  | _ => exact .inl ⟨.refl, rfl⟩

/-- A function refuses and writes nothing, or rewrites the transaction it finds. -/
def Rewrites {α : Type} (change : Course → Course) (refused : GenerationError → α)
    (saved : JournaledTransaction → α) (out : Records × α) : Prop :=
  (∃ err, written (some err) = false ∧ out = (r, refused err)) ∨
    ∃ tx tx', r.transactions.lookup lab = some tx ∧ tx'.course = change tx.course ∧
      tx'.origin = tx.origin ∧ out = (r.journal lab tx', saved tx')

theorem markTransactionPhase_cases (phase : TransactionPhase) (failure : String) (ok : Bool) :
    r.Rewrites lab ({ · with phase := phase }) some (fun _ => if ok then none else some .persist)
      (markTransactionPhase r now lab fence generation phase failure ok) := by
  fun_cases markTransactionPhase r now lab fence generation phase failure ok with
  | case1 err => exact .inl ⟨.lease err, rfl, rfl⟩
  | case2 | case3 => exact .inl ⟨_, rfl, rfl⟩
  | case4 _ tx htx =>
    refine .inr ⟨tx, _, htx, ?_, ?_, rfl⟩
    · cases phase <;> rfl
    · cases phase <;> rfl

variable {r now lab fence generation} in
theorem transactionForCommit_ok (h : transactionForCommit r now lab fence generation = .ok tx) :
    Owned r now lab fence generation tx ∧ tx.applied = true ∧
      (tx.stateProofs ≠ [] → tx.stateVerified = true) := by
  revert h
  fun_cases transactionForCommit r now lab fence generation with
  | case7 hfence tx' htx hown hverified =>
    rintro ⟨⟩
    push Not at hown
    refine ⟨⟨hfence, htx, hown.1, hown.2.1⟩, Bool.ne_false_iff.mp hown.2.2.1,
      fun hproofs => ?_⟩
    by_contra hnot
    exact hverified ⟨hproofs, Bool.not_eq_true _ ▸ hnot⟩
  | _ => nofun

theorem course_committedRecords (tx : JournaledTransaction) (inventory : Option Inventory) :
    (committedRecords r lab tx generation inventory).course lab =
      some { tx.course with phase := .committed } := by
  simp only [committedRecords, course, AList.lookup_insert, map_some]
  rfl

theorem committed_committedRecords (tx : JournaledTransaction) (inventory : Option Inventory) :
    (committedRecords r lab tx generation inventory).committed lab = generation := by
  simp [committedRecords, committed, Records.generation]

theorem course_uncommittedRecords (tx : JournaledTransaction) (inventory : Option Inventory) :
    (uncommittedRecords r lab tx generation inventory).course lab =
      some { tx.course with phase := .committed } := by
  simp only [uncommittedRecords, course, AList.lookup_insert, map_some]
  rfl

theorem committed_uncommittedRecords (tx : JournaledTransaction) (inventory : Option Inventory) :
    (uncommittedRecords r lab tx generation inventory).committed lab = r.committed lab := by
  simp [uncommittedRecords, committed, Records.generation]

theorem finalizeCommittedGeneration_cases (ok : Bool) :
    r.Leaves lab isNone (· = { r with transactions := r.transactions.erase lab })
      (finalizeCommittedGeneration r now lab fence generation ok) := by
  fun_cases finalizeCommittedGeneration r now lab fence generation ok with
  | case4 => exact .inr ⟨rfl, rfl⟩
  | case5 _ tx htx => exact .inl ⟨⟨by simp [htx], rfl, rfl, rfl, rfl⟩, rfl⟩
  | _ => exact .inl ⟨.refl, rfl⟩

theorem reopenCommittedTransaction_cases (ok : Bool) :
    r.Leaves lab (fun result => result.isOk && (r.transactions.lookup lab).any (·.committed))
      (fun r' => ∃ tx tx', r.transactions.lookup lab = some tx ∧
        tx'.course = { tx.course with phase := .rollbackNeeded } ∧ tx'.origin = tx.origin ∧
        r' = { r with
          generations := r.generations.insert lab
            { r.generation lab with committed := tx.previousGen, prepared := generation }
          transactions := r.transactions.insert lab tx' })
      (reopenCommittedTransaction r now lab fence generation ok) := by
  fun_cases reopenCommittedTransaction r now lab fence generation ok with
  | case4 _ tx htx _ hcommitted => exact .inl ⟨.refl, by simp [htx, hcommitted]⟩
  | case7 _ tx htx _ hcommitted =>
    refine .inr ⟨?_, tx, _, htx, ?_, ?_, rfl⟩
    · simpa [htx, Except.isOk, Except.toBool] using hcommitted
    · rfl
    · rfl
  | case8 _ tx htx _ _ _ _ state =>
    refine .inl ⟨⟨?_, ?_, ?_, rfl, rfl⟩, rfl⟩
    · simp [htx]
    · simp [Records.generation, state]
    · simp [Records.generation, state]
  | _ => exact .inl ⟨.refl, rfl⟩

variable {now lab generation} in
theorem recoveryRefusal_not_written {strategy : String} {options : RecoveryRunOptions}
    {err : GenerationError}
    (h : recoveryRefusal now lab generation strategy options tx = some err) :
    written (some err) = false := by
  unfold recoveryRefusal at h
  split_ifs at h
  all_goals
    cases h
    rfl

theorem beginRecovery_cases (strategy : String) (phaseLimit totalDeadline : Time)
    (options : RecoveryRunOptions) (ok : Bool) :
    r.Rewrites lab ({ · with phase := .recovering }) .error
      (fun tx => if ok then .ok tx else .error .persist)
      (beginRecovery r now lab fence generation strategy phaseLimit totalDeadline options ok) := by
  fun_cases beginRecovery r now lab fence generation strategy phaseLimit totalDeadline options
    ok with
  | case1 err => exact .inl ⟨.lease err, rfl, rfl⟩
  | case2 => exact .inl ⟨_, rfl, rfl⟩
  | case3 _ tx _ err hrefusal => exact .inl ⟨err, recoveryRefusal_not_written hrefusal, rfl⟩
  | case4 _ tx htx =>
    refine .inr ⟨tx, _, htx, ?_, ?_, rfl⟩
    · rfl
    · rfl

theorem resumeForward_cases (ok : Bool) :
    r.Rewrites lab ({ · with fence := fence.generation, phase := .applying }) .error
      (fun tx => if ok then .ok tx else .error .persist)
      (resumeForward r lab fence generation ok) := by
  fun_cases resumeForward r lab fence generation ok with
  | case1 | case2 => exact .inl ⟨_, rfl, rfl⟩
  | case3 tx htx =>
    refine .inr ⟨tx, _, htx, ?_, ?_, rfl⟩
    · rfl
    · rfl

theorem finishRecoveredGeneration_cases (ok : Bool) :
    r.Leaves lab written
      (fun r' => ∃ tx, r.transactions.lookup lab = some tx ∧ tx.generation = generation ∧
        fenceError r.server lab fence now = none ∧ r' = { r with
          generations := r.generations.insert lab
            { r.generation lab with committed := tx.previousGen, prepared := "" }
          inventories := r.inventories.insert lab tx.prestate
          transactions := if ok then r.transactions.erase lab
            else (r.transactions.erase lab).insert lab tx })
      (finishRecoveredGeneration r now lab fence generation ok) := by
  fun_cases finishRecoveredGeneration r now lab fence generation ok with
  | case4 hfence tx htx hgen out hok | case5 hfence tx htx hgen out hok =>
    exact .inr ⟨rfl, tx, htx, not_not.mp hgen, hfence, by simp [hok, out]⟩
  | _ => exact .inl ⟨.refl, rfl⟩

theorem finishDestroyedLab_cases (ok : Bool) :
    r.Leaves lab isNone (· = r.destroyedRecords lab)
      (finishDestroyedLab r now lab fence ok) := by
  fun_cases finishDestroyedLab r now lab fence ok with
  | case1 => exact .inl ⟨.refl, rfl⟩
  | case2 => exact .inr ⟨rfl, rfl⟩
  | case3 =>
    have hsame := undestroyedRecords_same r lab
    refine .inl ⟨⟨hsame.transactions lab, ?_, ?_, hsame.inventories lab,
      hsame.overlayLineage lab⟩, rfl⟩
    · rw [Records.generation, hsame.generations, Records.generation]
    · rw [Records.generation, hsame.generations, Records.generation]

end Cases

end Records

open Records

/-! ### What one action does -/

/-- The records of a lab go on as they were. -/
structure Steady (lab : String) (d d' : GenerationNode) : Prop where
  course : d'.records.course lab = d.records.course lab
  committed : d'.records.committed lab = d.records.committed lab

/-- All that one action can do, with what it adds to the history. -/
inductive Turn (lab : String) (d : GenerationNode) (a : GenerationAction) (d' : GenerationNode) :
    List Moment → Prop
  | quiet : Steady lab d d' → Turn lab d a d' []
  | prepared (fence : Nat) (generation : String) (proofs : List String) (contract : Contract) :
      d.records.course lab = none →
      (∃ f req ok, a = .prepare f req ok ∧ contract.manifest = req.manifest) →
      requireTransactionMode contract.mode = some contract.mode →
      requireTransactionMode contract.previousMode ≠ none →
      d'.records.course lab = some
        { generation := generation, expected := d.records.committed lab, fence := fence
          proofs := proofs, applied := false, verified := false, phase := .prepared
          contract := contract, solve := none } →
      d'.records.committed lab = d.records.committed lab →
      Turn lab d a d' [.prepared fence (d.records.committed lab) generation proofs]
  | recorded (c : Course) (record : SolveTransition) : d.records.course lab = some c →
      (∃ f ok, a = .recordSolve f c.generation record ok) →
      d'.records.course lab = some { c with solve := some record } →
      d'.records.committed lab = d.records.committed lab → Turn lab d a d' []
  | started (c : Course) : d.records.course lab = some c →
      d'.records.course lab = some { c with phase := .applying } →
      d'.records.committed lab = d.records.committed lab →
      Turn lab d a d' [.started c.fence c.generation]
  | applied (c : Course) : d.records.course lab = some c →
      d'.records.course lab = some { c with applied := true, phase := .applied } →
      d'.records.committed lab = d.records.committed lab →
      Turn lab d a d' [.applied c.fence c.generation]
  | verified (c : Course) : d.records.course lab = some c →
      d'.records.course lab = some { c with verified := true } →
      d'.records.committed lab = d.records.committed lab →
      Turn lab d a d' [.verified c.fence c.generation]
  | checked (c : Course) : d.records.course lab = some c →
      (c.proofs ≠ [] → c.verified = true) → Steady lab d d' →
      Turn lab d a d' [.checked c.fence c.generation]
  | committed (c : Course) (fence : Fence) : d.records.course lab = some c →
      c.fence = fence.generation → c.applied = true → (fence, c.generation) ∈ d.committing →
      d'.records.course lab = some { c with phase := .committed } →
      d'.records.committed lab = c.generation →
      Turn lab d a d' [.committed c.fence c.generation]
  | uncommitted (c : Course) : d.records.course lab = some c →
      d'.records.course lab = some { c with phase := .committed } →
      d'.records.committed lab = d.records.committed lab → Turn lab d a d' []
  | marked (c : Course) (phase : TransactionPhase) : phase.failed = true →
      d.records.course lab = some c →
      d'.records.course lab = some { c with phase := phase } →
      d'.records.committed lab = d.records.committed lab → Turn lab d a d' [.marked phase]
  | recovers (c c' : Course) (m : Moment) : m.recovers = true →
      d.records.course lab = some c → d'.records.course lab = some c' →
      c'.generation = c.generation ∧ c'.expected = c.expected ∧ c'.proofs = c.proofs →
      c'.contract = c.contract ∧ c'.solve = c.solve →
      (c'.phase = .applying ∨ c'.phase = .applied → c'.phase = c.phase ∨ m = .resumed) →
      d'.records.committed lab = m.commits (d.records.committed lab) → Turn lab d a d' [m]
  | closes (m : Moment) : m.closes = true → d'.records.course lab = none →
      d'.records.committed lab = m.commits (d.records.committed lab) → Turn lab d a d' [m]

variable {generation : String}

section Turn

variable {lab : String} {d : GenerationNode} {a : GenerationAction}

/-- A request takes a turn. -/
def Takes (lab : String) (d : GenerationNode) (a : GenerationAction)
    (out : GenerationNode × List Moment) : Prop := Turn lab d a out.1 out.2

variable {r : Records} {wrote : Bool}

theorem takes_after (hquiet : wrote = false → Steady lab d { d with records := r })
    (hturn : wrote = true → Turn lab d a { d with records := r } [m]) :
    Takes lab d a (d.after r wrote m) := by
  cases wrote with
  | false => exact .quiet (hquiet rfl)
  | true => exact hturn rfl

theorem Records.Alike.steady (h : r.Alike lab d.records) :
    Steady lab d { d with records := r } := by
  refine ⟨?_, h.committed⟩
  rw [course, h.transaction, course]

/-- A function that leaves what the lab has records nothing. -/
theorem takes_unwritten (h : r.Alike lab d.records)
    (hnot : wrote = false) : Takes lab d a (d.after r wrote m) :=
  takes_after (fun _ => h.steady) fun hwrote => nomatch hnot.symm.trans hwrote

theorem takes_leaves {α : Type} {wrote : α → Bool} {done : Records → Prop} {out : Records × α}
    (m : Records → Moment) (h : d.records.Leaves lab wrote done out)
    (hturn : ∀ r', done r' → Turn lab d a { d with records := r' } [m r']) :
    Takes lab d a (d.after out.1 (wrote out.2) (m out.1)) := by
  rcases h with ⟨halike, hnot⟩ | ⟨hwrote, hdone⟩
  · exact takes_unwritten halike hnot
  · rw [hwrote]
    exact hturn _ hdone

theorem takes_rewrites {α : Type} (wrote : α → Bool) {change : Course → Course}
    {refused : GenerationError → α} {saved : JournaledTransaction → α} {out : Records × α}
    (hrefused : ∀ err, wrote (refused err) = written (some err))
    (hsaved : ∀ tx, wrote (saved tx) = true)
    (h : d.records.Rewrites lab change refused saved out)
    (hturn : ∀ c d', d.records.course lab = some c → d'.records.course lab = some (change c) →
      d'.records.committed lab = d.records.committed lab → Turn lab d a d' [m]) :
    Takes lab d a (d.after out.1 (wrote out.2) m) := by
  rcases h with ⟨err, hwritten, rfl⟩ | ⟨tx, tx', htx, hcourse, -, rfl⟩
  · exact takes_unwritten .refl ((hrefused err).trans hwritten)
  · refine takes_after (fun h => nomatch (hsaved tx').symm.trans h) fun _ => ?_
    exact hturn tx.course _ (by simp [course, htx])
      ((course_journal ..).trans (congrArg some hcourse)) rfl

variable {fence : Fence}

theorem takes_amend
    {m : Nat → String → Moment} (hrefusal : refusal ≠ .persist)
    (hturn : ∀ tx, d.records.course lab = some tx.course → ready tx = true →
      Turn lab d a { d with records := d.records.journal lab (write tx) }
        [m tx.course.fence tx.course.generation]) :
    Takes lab d a
      (d.after (amend d.records d.now lab fence generation ready refusal write ok).1
        (written (amend d.records d.now lab fence generation ready refusal write ok).2)
        (m fence.generation generation)) := by
  rcases amend_cases d.records d.now lab fence generation ready hrefusal write ok with
    ⟨err, hwritten, heq⟩ | ⟨tx, howned, hready, heq⟩
  · rw [heq]
    exact takes_unwritten .refl hwritten
  · have hturn' := hturn tx howned.course hready
    rw [show tx.course.fence = fence.generation from howned.own,
      show tx.course.generation = generation from howned.generation] at hturn'
    rw [heq, written_saved]
    exact hturn'

theorem steady_amend (hrefusal : refusal ≠ .persist)
    (hwrite : ∀ tx, (write tx).course = tx.course) :
    Steady lab d { d with
      records := (d.records.amend d.now lab fence generation ready refusal write ok).1 } := by
  rcases d.records.amend_cases d.now lab fence generation ready hrefusal write ok with
    ⟨err, -, heq⟩ | ⟨tx, howned, -, heq⟩
  · rw [heq]
    exact ⟨rfl, rfl⟩
  · rw [heq]
    exact ⟨by rw [course_journal, hwrite, howned.course], rfl⟩

theorem takes_prepare {req : PrepareRequest} :
    Takes lab d (.prepare fence req ok) (generationStep lab d (.prepare fence req ok)) := by
  refine takes_leaves (fun _ => _) (d.records.prepareGeneration_cases d.now lab fence req ok) ?_
  rintro _ ⟨desired, hnone, hexpected, hdesired, hprevious, rfl⟩
  rw [← hexpected]
  refine .prepared _ _ _ (req.transaction fence desired req.expected).contract
    (by simp [course, hnone]) ⟨_, _, _, rfl, rfl⟩ (req.desiredMode_valid hdesired)
    hprevious ?_ ?_
  · simp [course, JournaledTransaction.course, PrepareRequest.transaction, hexpected]
  · simp [committed, generation]

theorem takes_commitBegin :
    Takes lab d (.commitBegin fence generation)
      (generationStep lab d (.commitBegin fence generation)) := by
  unfold generationStep
  simp only
  cases hcheck : d.records.transactionForCommit d.now lab fence generation with
  | error err => exact .quiet ⟨rfl, rfl⟩
  | ok tx =>
    obtain ⟨howned, -, hverified⟩ := transactionForCommit_ok hcheck
    cases hc : tx.committed with
    | true =>
      simp only [hc, if_true]
      exact .quiet ⟨rfl, rfl⟩
    | false =>
      have hturn : Turn lab d (.commitBegin fence generation)
          { d with committing := (fence, generation) :: d.committing } _ :=
        .checked tx.course howned.course hverified ⟨rfl, rfl⟩
      rw [show tx.course.fence = fence.generation from howned.own,
        show tx.course.generation = generation from howned.generation] at hturn
      simp only [hc, Bool.false_eq_true, if_false]
      exact hturn

variable {inventory : Option Inventory}

theorem takes_commitEnd :
    Takes lab d (.commitEnd fence generation inventory ok)
      (generationStep lab d (.commitEnd fence generation inventory ok)) := by
  unfold generationStep
  simp only
  by_cases hmem : (fence, generation) ∈ d.committing
  · rw [if_pos hmem]
    rcases finishCommittedGeneration_cases d.records d.now lab fence generation inventory
      ok with ⟨err, -, heq⟩ | ⟨tx, howned, happlied, heq⟩
    · rw [heq]
      exact .quiet ⟨rfl, rfl⟩
    · have hgen : tx.course.generation = generation := howned.generation
      rw [heq]
      -- a commit that cannot be saved is taken back
      cases ok with
      | true =>
        have hturn : Turn lab d (.commitEnd fence generation inventory true)
            { d with
              records := d.records.committedRecords lab tx generation inventory
              committing := d.committing.erase (fence, generation) } _ :=
          .committed tx.course fence howned.course howned.own happlied (hgen ▸ hmem)
            (course_committedRecords ..) (hgen ▸ committed_committedRecords ..)
        rw [hgen, show tx.course.fence = fence.generation from howned.own] at hturn
        exact hturn
      | false =>
        exact .uncommitted tx.course howned.course (course_uncommittedRecords ..)
          (committed_uncommittedRecords ..)
  · rw [if_neg hmem]
    exact .quiet ⟨rfl, rfl⟩

theorem takes_reopen :
    Takes lab d (.reopen fence generation ok)
      (generationStep lab d (.reopen fence generation ok)) := by
  refine takes_leaves (fun r => .returned (r.generation lab).committed)
    (d.records.reopenCommittedTransaction_cases d.now lab fence generation ok) ?_
  rintro _ ⟨tx, tx', htx, hcourse, -, rfl⟩
  exact .recovers tx.course tx'.course _ rfl (by simp [course, htx])
    (by simp [course]) (by simp [hcourse]) (by simp [hcourse]) (by simp [hcourse]) rfl

theorem takes_commitForward :
    Takes lab d (.commitForward fence generation inventory ok)
      (generationStep lab d (.commitForward fence generation inventory ok)) := by
  unfold generationStep
  simp only
  rcases finishCommittedGeneration_cases d.records d.now lab fence generation inventory ok
    with ⟨err, -, heq⟩ | ⟨tx, howned, -, heq⟩
  · rw [heq]
    exact .quiet ⟨rfl, rfl⟩
  · rw [heq]
    cases ok with
    | true =>
      exact .recovers tx.course _ _ rfl howned.course (course_committedRecords ..)
        ⟨rfl, rfl, rfl⟩ ⟨rfl, rfl⟩ (by simp) (committed_committedRecords ..)
    | false =>
      exact .uncommitted tx.course howned.course (course_uncommittedRecords ..)
        (committed_uncommittedRecords ..)

theorem takes_finishRecovered :
    Takes lab d (.finishRecovered fence generation ok)
      (generationStep lab d (.finishRecovered fence generation ok)) := by
  refine takes_leaves (fun r => if ok then .recovered (r.generation lab).committed
    else .returned (r.generation lab).committed)
    (d.records.finishRecoveredGeneration_cases d.now lab fence generation ok) ?_
  rintro _ ⟨tx, htx, -, -, rfl⟩
  cases ok with
  | true => exact .closes _ rfl (by simp [course]) rfl
  | false =>
    exact .recovers tx.course tx.course _ rfl (by simp [course, htx])
      (by simp [course]) ⟨rfl, rfl, rfl⟩ ⟨rfl, rfl⟩ (fun _ => .inl rfl) rfl

/-- Every request takes one of the turns. -/
theorem turn_of_step (lab : String) (d : GenerationNode) (a : GenerationAction) :
    Turn lab d a (generationStep lab d a).1 (generationStep lab d a).2 := by
  cases a with
  | leases mutations now => exact .quiet ⟨rfl, rfl⟩
  | prepare fence req ok => exact takes_prepare
  | recordSolve fence generation record ok =>
    rcases d.records.amend_cases d.now lab fence generation (fun _ => true)
      (show GenerationError.notPrepared generation lab ≠ .persist by simp)
      (fun tx => { tx with solveTransition := some record }) ok with
      ⟨err, -, heq⟩ | ⟨tx, howned, -, heq⟩
    · simp only [generationStep, recordGenerationSolveTransition, heq]
      exact .quiet ⟨rfl, rfl⟩
    · simp only [generationStep, recordGenerationSolveTransition, heq]
      exact .recorded tx.course record howned.course
        ⟨fence, ok, by rw [← howned.generation]; rfl⟩ (course_journal ..) rfl
  | recordTouched fence generation vnis known ok =>
    exact .quiet (steady_amend (by simp) fun _ => rfl)
  | applyStart fence generation ok =>
    exact takes_amend (m := .started) (by simp) fun tx hcourse _ =>
      .started tx.course hcourse (course_journal ..) rfl
  | applyFinish fence generation ok =>
    exact takes_amend (m := .applied) (by simp) fun tx hcourse _ =>
      .applied tx.course hcourse (course_journal ..) rfl
  | stateVerify fence generation ok =>
    exact takes_amend (m := .verified) (by simp) fun tx hcourse _ =>
      .verified tx.course hcourse (course_journal ..) rfl
  | commitBegin fence generation => exact takes_commitBegin
  | commitEnd fence generation inventory ok => exact takes_commitEnd
  | finalize fence generation ok =>
    refine takes_leaves (fun _ => _) (d.records.finalizeCommittedGeneration_cases ..) ?_
    rintro _ rfl
    exact .closes _ rfl (by simp [course]) rfl
  | rollbackNeeded fence generation failure ok | rollbackFailed fence generation failure ok =>
    exact takes_rewrites written (fun _ => rfl) (fun _ => written_saved ok)
      (markTransactionPhase_cases ..) fun c _ => .marked c _ rfl
  | reopen fence generation ok => exact takes_reopen
  | beginRecovery fence generation strategy phaseLimit totalDeadline options ok =>
    exact takes_rewrites writtenIf (fun _ => rfl) (fun _ => writtenIf_saved ok _)
      (beginRecovery_cases ..) fun c _ hc hc' =>
        .recovers c _ .begun rfl hc hc' ⟨rfl, rfl, rfl⟩ ⟨rfl, rfl⟩ (by simp)
  | resumeForward fence generation ok =>
    exact takes_rewrites writtenIf (fun _ => rfl) (fun _ => writtenIf_saved ok _)
      (resumeForward_cases ..) fun c _ hc hc' =>
        .recovers c _ .resumed rfl hc hc' ⟨rfl, rfl, rfl⟩ ⟨rfl, rfl⟩ fun _ => .inr rfl
  | commitForward fence generation inventory ok => exact takes_commitForward
  | finishRecovered fence generation ok => exact takes_finishRecovered
  | destroy fence ok =>
    refine takes_leaves (fun _ => _) (d.records.finishDestroyedLab_cases ..) ?_
    rintro _ rfl
    refine .closes _ rfl ?_ ?_
    · simp [course, destroyedRecords]
    · simp [committed, generation, destroyedRecords, Moment.commits]

theorem committing_step (a : GenerationAction)
    (h : (fence, generation) ∈ (generationStep lab d a).1.committing) :
    (fence, generation) ∈ d.committing ∨
      (generationStep lab d a).2 = [.checked fence.generation generation] := by
  cases a with
  | commitBegin fence' generation' =>
    simp only [generationStep] at h ⊢
    cases hcheck : d.records.transactionForCommit d.now lab fence' generation' with
    | error err =>
      simp only [hcheck] at h
      exact .inl h
    | ok tx =>
      simp only [hcheck] at h ⊢
      split_ifs at h ⊢
      · exact .inl h
      · rcases mem_cons.mp h with heq | h
        · cases heq
          exact .inr rfl
        · exact .inl h
  | commitEnd fence' generation' inventory ok =>
    simp only [generationStep] at h
    split_ifs at h
    · exact .inl (mem_of_mem_erase h)
    · exact .inl h
  | _ => exact .inl h

end Turn

/-! ### Records and history -/

/-- The part of the history that a transaction has had so far, and what can be
    found in it. -/
structure Chapter (first : String) (history : List Moment) (c : Course) (fence : Nat)
    (earlier since : List Moment) : Prop where
  split : history = earlier ++ .prepared fence c.expected c.generation c.proofs :: since
  within : ∀ m ∈ since, m.opens = false ∧ m.closes = false
  expected : c.expected = committedBy first earlier
  own : (∀ m ∈ since, m.recovers = false) → c.fence = fence
  applied : (∀ m ∈ since, m.recovers = false) → c.applied = true →
    .applied fence c.generation ∈ since
  verified : (∀ m ∈ since, m.recovers = false) → c.verified = true →
    .verified fence c.generation ∈ since
  checked : (∀ m ∈ since, m.recovers = false) → .checked fence c.generation ∈ since →
    c.proofs ≠ [] → .verified fence c.generation ∈ since

/-- The records agree with the history. -/
structure Chronicle (lab first : String) (history : List Moment) (d : GenerationNode) : Prop where
  committed : d.records.committed lab = committedBy first history
  shut : d.records.course lab = none → ∀ earlier m since, history = earlier ++ m :: since →
    m.opens = true → ∃ m' ∈ since, m'.closes = true
  chapter : ∀ c, d.records.course lab = some c → ∃ fence earlier since,
    Chapter first history c fence earlier since
  checked : ∀ fence generation, (fence, generation) ∈ d.committing →
    .checked fence.generation generation ∈ history

theorem committedBy_concat (first : String) (history : List Moment) (m : Moment) :
    committedBy first (history ++ [m]) = m.commits (committedBy first history) := by
  simp [committedBy, foldl_append]

variable {since : List Moment}

theorem committedBy_append {first : String} {history : List Moment}
    (h : ∀ m ∈ since, m.closes = false ∧ m.recovers = false ∧ ∀ f g, m ≠ .committed f g) :
    committedBy first (history ++ since) = committedBy first history := by
  unfold committedBy
  rw [foldl_append]
  refine foldlRecOn (motive := (· = history.foldl Moment.commits first)) since _ rfl
    fun before hbefore m hm => ?_
  rw [Moment.commits_eq (h m hm).1 (h m hm).2.1 (h m hm).2.2, hbefore]

variable {fence : Nat} {ms : List Moment}

section Chronicle

variable {lab first : String} {history : List Moment} {d d' : GenerationNode} {a : GenerationAction}
  {earlier : List Moment} {c : Course}

theorem Chapter.concat {c' : Course}
    (h : Chapter first history c fence earlier since) (hm : m.opens = false ∧ m.closes = false)
    (hsame : c'.generation = c.generation ∧ c'.expected = c.expected ∧ c'.proofs = c.proofs)
    (hown : m.recovers = false → c'.fence = c.fence)
    (happlied : m.recovers = false → c'.applied = true →
      c.applied = true ∨ m = .applied c.fence c.generation)
    (hverified : m.recovers = false → c'.verified = true →
      c.verified = true ∨ m = .verified c.fence c.generation)
    (hchecked : ∀ f g, m = .checked f g → c.proofs ≠ [] → c.verified = true) :
    Chapter first (history ++ [m]) c' fence earlier (since ++ [m]) := by
  obtain ⟨hgen, hexpected, hproofs⟩ := hsame
  -- without a recovery so far there was none before either
  have hearlier : (∀ m' ∈ since ++ [m], m'.recovers = false) →
      (∀ m' ∈ since, m'.recovers = false) ∧ m.recovers = false := fun hplain =>
    ⟨fun m' hm' => hplain m' (mem_append_left _ hm'), hplain m (by simp)⟩
  constructor
  · rw [hexpected, hgen, hproofs, h.split, append_assoc, cons_append]
  · intro m' hm'
    rcases mem_append.mp hm' with hm' | hm'
    · exact h.within m' hm'
    · rw [mem_singleton.mp hm']
      exact hm
  · rw [hexpected, h.expected]
  · intro hplain
    obtain ⟨hsince, hnow⟩ := hearlier hplain
    rw [hown hnow, h.own hsince]
  · intro hplain hc
    obtain ⟨hsince, hnow⟩ := hearlier hplain
    rw [hgen]
    rcases happlied hnow hc with hc | rfl
    · exact mem_append_left _ (h.applied hsince hc)
    · simp [h.own hsince]
  · intro hplain hc
    obtain ⟨hsince, hnow⟩ := hearlier hplain
    rw [hgen]
    rcases hverified hnow hc with hc | rfl
    · exact mem_append_left _ (h.verified hsince hc)
    · simp [h.own hsince]
  · intro hplain hc hne
    obtain ⟨hsince, hnow⟩ := hearlier hplain
    rw [hproofs] at hne
    rw [hgen] at hc ⊢
    rcases mem_append.mp hc with hc | hc
    · exact mem_append_left _ (h.checked hsince hc hne)
    · exact mem_append_left _
        (h.verified hsince (hchecked _ _ (mem_singleton.mp hc).symm hne))

theorem Chapter.rewrite (h : Chapter first history c fence earlier since)
    (phase : TransactionPhase) (solve : Option SolveTransition) :
    Chapter first history { c with phase := phase, solve := solve } fence earlier since :=
  { h with }

theorem chapter_prepared (hm : m = .prepared fence c.expected c.generation c.proofs)
    (hfence : c.fence = fence) (hexpected : c.expected = committedBy first history)
    (hfresh : c.applied = false ∧ c.verified = false) :
    Chapter first (history ++ [m]) c fence history [] where
  split := by rw [hm]
  within := by simp
  expected := hexpected
  own := fun _ => hfence
  applied := fun _ h => absurd h (by simp [hfresh.1])
  verified := fun _ h => absurd h (by simp [hfresh.2])
  checked := nofun

theorem closed_of_concat (hm : m.closes = true) {m' : Moment}
    (h : history ++ [m] = earlier ++ m' :: since) (hopens : m'.opens = true) :
    ∃ x ∈ since, x.closes = true := by
  rcases eq_nil_or_concat since with rfl | ⟨since', x, rfl⟩
  · have hlast := append_inj_right' h rfl
    rw [cons.injEq] at hlast
    obtain ⟨rfl, -⟩ := hlast
    exact absurd hopens (by simp [Moment.opens_of_closes hm])
  · have hlast : history ++ [m] = (earlier ++ m' :: since') ++ [x] := by
      rw [h, concat_eq_append, append_assoc, cons_append]
    obtain ⟨-, hx⟩ := append_inj' hlast rfl
    cases hx
    exact ⟨m, by simp, hm⟩

/-- A node whose records agree with the history so far. -/
def Told (lab first : String) (history : List Moment) (d : GenerationNode) : Prop :=
  d.records.committed lab = committedBy first history ∧
    (d.records.course lab = none → ∀ earlier m since, history = earlier ++ m :: since →
      m.opens = true → ∃ m' ∈ since, m'.closes = true) ∧
    ∀ c, d.records.course lab = some c → ∃ fence earlier since,
      Chapter first history c fence earlier since

/-- A transaction that goes on in its chapter. -/
theorem Chronicle.goes_on {c' : Course} (h : Chronicle lab first history d)
    (hc : d.records.course lab = some c) (hc' : d'.records.course lab = some c')
    (hcommitted : d'.records.committed lab = committedBy first (history ++ ms))
    (hchapter : ∀ fence earlier since, Chapter first history c fence earlier since →
      Chapter first (history ++ ms) c' fence earlier (since ++ ms)) :
    Told lab first (history ++ ms) d' := by
  refine ⟨hcommitted, fun hnone => absurd (hc'.symm.trans hnone) (by simp), fun c'' hc'' => ?_⟩
  obtain rfl := some.inj (hc'.symm.trans hc'')
  obtain ⟨fence, earlier, since, hold⟩ := h.chapter c hc
  exact ⟨fence, earlier, since ++ ms, hchapter _ _ _ hold⟩

theorem Chronicle.turn (h : Chronicle lab first history d) (hturn : Turn lab d a d' ms) :
    Told lab first (history ++ ms) d' := by
  -- a turn that leaves the committed generation alone
  have hkept : d'.records.committed lab = d.records.committed lab →
      (∀ before, ms.foldl Moment.commits before = before) →
      d'.records.committed lab = committedBy first (history ++ ms) := fun hsame hms => by
    rw [hsame, h.committed, committedBy, committedBy, foldl_append, hms]
  cases hturn with
  | quiet hsteady =>
    rw [append_nil, Told, hsteady.course, hsteady.committed]
    exact ⟨h.committed, h.shut, h.chapter⟩
  | prepared fence generation proofs contract hnone hreq hmode hprevious hcourse hsame =>
    refine ⟨hkept hsame fun _ => rfl, fun h' => absurd (hcourse.symm.trans h') (by simp),
      fun c hc => ?_⟩
    obtain rfl := some.inj (hcourse.symm.trans hc)
    exact ⟨fence, history, [], chapter_prepared rfl rfl h.committed ⟨rfl, rfl⟩⟩
  | recorded c record hc hreq hcourse hsame =>
    refine h.goes_on hc hcourse (hkept hsame fun _ => rfl) fun _ _ _ hold => ?_
    simpa only [append_nil] using hold.rewrite c.phase (some record)
  | started c hc hcourse hsame | marked c phase hphase hc hcourse hsame =>
    refine h.goes_on hc hcourse (hkept hsame fun _ => rfl) fun _ _ _ hold => ?_
    exact hold.concat ⟨rfl, rfl⟩ ⟨rfl, rfl, rfl⟩ (fun _ => rfl) (fun _ => .inl)
      (fun _ => .inl) nofun
  | applied c hc hcourse hsame =>
    refine h.goes_on hc hcourse (hkept hsame fun _ => rfl) fun _ _ _ hold => ?_
    exact hold.concat ⟨rfl, rfl⟩ ⟨rfl, rfl, rfl⟩ (fun _ => rfl) (fun _ _ => .inr rfl)
      (fun _ => .inl) nofun
  | verified c hc hcourse hsame =>
    refine h.goes_on hc hcourse (hkept hsame fun _ => rfl) fun _ _ _ hold => ?_
    exact hold.concat ⟨rfl, rfl⟩ ⟨rfl, rfl, rfl⟩ (fun _ => rfl) (fun _ => .inl)
      (fun _ _ => .inr rfl) nofun
  | checked c hc hverified hsteady =>
    refine h.goes_on hc (hsteady.course.trans hc) (hkept hsteady.committed fun _ => rfl)
      fun _ _ _ hold => ?_
    exact hold.concat ⟨rfl, rfl⟩ ⟨rfl, rfl, rfl⟩ (fun _ => rfl) (fun _ => .inl)
      (fun _ => .inl) fun _ _ _ hne => hverified hne
  | committed c fence hc hfence happlied hmem hcourse hcommitted =>
    refine h.goes_on hc hcourse (by rw [hcommitted, committedBy_concat]; rfl) fun _ _ _ hold => ?_
    exact hold.concat ⟨rfl, rfl⟩ ⟨rfl, rfl, rfl⟩ (fun _ => rfl) (fun _ => .inl)
      (fun _ => .inl) nofun
  | uncommitted c hc hcourse hsame =>
    refine h.goes_on hc hcourse (hkept hsame fun _ => rfl) fun _ _ _ hold => ?_
    simpa only [append_nil] using hold.rewrite .committed c.solve
  | recovers c c' m hm hc hcourse hkeeps hcontract hphase hcommitted =>
    have hclass := Moment.apart_of_recovers hm
    have hnot : ∀ {P : Prop}, m.recovers = false → P := fun h => nomatch hm.symm.trans h
    refine h.goes_on hc hcourse (by rw [hcommitted, h.committed, committedBy_concat])
      fun _ _ _ hold => ?_
    exact hold.concat ⟨hclass.1, hclass.2.1⟩ hkeeps hnot hnot hnot
      fun f g heq => absurd heq (hclass.2.2 f g)
  | closes m hm hcourse hcommitted =>
    exact ⟨by rw [hcommitted, h.committed, committedBy_concat],
      fun _ _ _ _ hsplit hopens => closed_of_concat hm hsplit hopens,
      fun c hc => nomatch hcourse.symm.trans hc⟩

/-- The records of a node that started without a transaction agree with the
    history of every run. -/
theorem chronicle_run (lab : String) (r : Records) (now : Time) (acts : List GenerationAction) :
    Chronicle lab (r.committed lab) ((generations lab).trace (.start r now) acts)
      ((generations lab).run (.start r now) acts) := by
  have hstart : Chronicle lab (r.committed lab) [] (.start r now) :=
    ⟨rfl, fun _ earlier m since h => by simp at h,
      fun c hc => by simp [GenerationNode.start, course] at hc,
      by simp [GenerationNode.start]⟩
  have hrun := (generations lab).history_induction (Chronicle lab (r.committed lab)) ?_ [] _ acts
    hstart
  · simpa only [nil_append] using hrun
  · intro hist d a h
    obtain ⟨hcommitted, hshut, hchapter⟩ := h.turn (turn_of_step lab d a)
    refine ⟨hcommitted, hshut, hchapter, fun fence generation hmem => ?_⟩
    rcases committing_step a hmem with hmem | hchecked
    · exact mem_append_left _ (h.checked fence generation hmem)
    · have hstep : ((generations lab).step d a).2 = _ := hchecked
      simp [hstep]

theorem Turn.phase (hturn : Turn lab d a d' ms) {c' : Course} (hc : d.records.course lab = some c)
    (hc' : d'.records.course lab = some c') (hphase : c'.phase = .applying ∨ c'.phase = .applied) :
    c'.phase = c.phase ∨ ms = [.started c.fence c.generation] ∨
      ms = [.applied c.fence c.generation] ∨ ms = [.resumed] := by
  -- every turn says what the transaction was and what it is now
  have hwas : ∀ c₀, d.records.course lab = some c₀ → c₀ = c := fun c₀ h =>
    some.inj (h.symm.trans hc)
  have his : ∀ c₀, d'.records.course lab = some c₀ → c₀ = c' := fun c₀ h =>
    some.inj (h.symm.trans hc')
  cases hturn with
  | quiet hsteady | checked c₀ h hverified hsteady =>
    exact .inl (by rw [← his c (hsteady.course.trans hc)])
  | prepared fence generation proofs contract hnone => rw [hnone] at hc; cases hc
  | recorded c₀ record h hreq h' | verified c₀ h h' => exact .inl (by rw [← his _ h', hwas c₀ h])
  | started c₀ h => exact .inr (.inl (by rw [hwas c₀ h]))
  | applied c₀ h => exact .inr (.inr (.inl (by rw [hwas c₀ h])))
  | committed c₀ fence h hfence happlied hmem h' | uncommitted c₀ h h' =>
    rw [← his _ h'] at hphase; simp at hphase
  | marked c₀ phase hfailed h h' =>
    rw [← his _ h'] at hphase
    rcases hphase with rfl | rfl <;> simp [TransactionPhase.failed] at hfailed
  | recovers c₀ c₁ m hm h h' hkeeps hcontract hresumed =>
    rw [his _ h', hwas _ h] at hresumed
    rcases hresumed hphase with heq | rfl
    · exact .inl heq
    · exact .inr (.inr (.inr rfl))
  | closes m hm hnone => rw [hnone] at hc'; cases hc'

end Chronicle

/-! ### Every run -/

variable {d' d : GenerationNode} {lab : String}

theorem Turn.single {l r : List Moment} (hturn : Turn lab d a d' ms)
    (h : ms = l ++ m :: r) : l = [] ∧ ms = [m] := by
  have hlength : ms.length ≤ 1 := by cases hturn <;> simp
  rw [h] at hlength
  simp only [length_append, length_cons] at hlength
  obtain rfl : l = [] := length_eq_zero_iff.mp (by omega)
  obtain rfl : r = [] := length_eq_zero_iff.mp (by omega)
  exact ⟨rfl, h⟩

theorem Turn.of_prepared {expected : String} {proofs : List String}
    (hturn : Turn lab d a d' [.prepared fence expected generation proofs]) :
    d.records.course lab = none := by
  cases hturn with
  | prepared _ _ _ _ hnone => exact hnone
  | recovers _ _ _ hm | closes _ hm => cases hm

theorem Turn.of_committed (hturn : Turn lab d a d' [.committed fence generation]) :
    ∃ c f, d.records.course lab = some c ∧ c.fence = fence ∧ c.generation = generation ∧
      c.applied = true ∧ f.generation = fence ∧ (f, generation) ∈ d.committing := by
  cases hturn with
  | committed c f hc hfence happlied hmem =>
    exact ⟨c, f, hc, rfl, rfl, happlied, hfence.symm, hmem⟩
  | recovers _ _ _ hm | closes _ hm => cases hm

/-- What is observed in a run is observed by one turn, of a node whose records agree with the
    history until then. -/
theorem exists_turn_of_trace {r : Records} {now : Time} {acts : List GenerationAction}
    {before after : List Moment}
    (h : (generations lab).trace (.start r now) acts = before ++ m :: after) :
    ∃ d a d', Chronicle lab (r.committed lab) before d ∧ Turn lab d a d' [m] := by
  obtain ⟨xs, a, ys, l, rest, -, hstep, rfl⟩ := Machine.exists_step_of_trace _ h
  have hturn := turn_of_step lab ((generations lab).run (.start r now) xs) a
  obtain ⟨rfl, hsingle⟩ := hturn.single hstep
  rw [hsingle] at hturn
  rw [append_nil]
  exact ⟨_, a, _, chronicle_run lab r now xs, hturn⟩

/-- The course of transactions, for a lab of a node that started without one and
    for every sequence of requests, under whatever fences pass. A transaction is
    prepared only after the one before it was finalized, taken back or destroyed.
    A generation is committed only if it was prepared against the generation that
    was committed then and, as long as no recovery has been at it, is committed
    still; only if it was applied under the fence it was prepared under; and, when
    state has to be verified, only if that was done, or the commit was checked for
    an earlier transaction of the same fence and generation. A transaction gets
    into an applying or applied phase, from whatever phase it is in, by an apply
    request under its own fence or by an explicit recovery and not otherwise. -/
theorem phase_discipline (lab : String) (r : Records) (now : Time)
    (acts : List GenerationAction) :
    (∀ before f e g p since m after,
      (generations lab).trace (.start r now) acts =
        before ++ .prepared f e g p :: (since ++ m :: after) →
      m.opens = true → ∃ m' ∈ since, m'.closes = true) ∧
    (∀ before f g after,
      (generations lab).trace (.start r now) acts = before ++ .committed f g :: after →
      ∃ earlier f' e p since, before = earlier ++ .prepared f' e g p :: since ∧
        (∀ m ∈ since, m.opens = false ∧ m.closes = false) ∧
        e = committedBy (r.committed lab) earlier ∧
        ((∀ m ∈ since, m.recovers = false) →
          f' = f ∧ .applied f g ∈ since ∧
          (p ≠ [] → .verified f g ∈ since ∨ (.checked f g ∉ since ∧ .checked f g ∈ earlier)) ∧
          ((∀ f'' g'', .committed f'' g'' ∉ since) →
            committedBy (r.committed lab) before = e))) ∧
    ∀ xs a ys, acts = xs ++ a :: ys →
      ∀ c c', ((generations lab).run (.start r now) xs).records.course lab = some c →
        ((generations lab).run (.start r now) (xs ++ [a])).records.course lab = some c' →
        (c'.phase = .applying ∨ c'.phase = .applied) →
        c'.phase = c.phase ∨
          ∃ m ∈ [Moment.started c.fence c.generation, .applied c.fence c.generation, .resumed],
            ((generations lab).step ((generations lab).run (.start r now) xs) a).2 = [m] := by
  refine ⟨?_, ?_, ?_⟩
  · intro before f e g p since m after htrace hopens
    obtain ⟨f', e', g', p', rfl⟩ := Moment.exists_of_opens hopens
    -- when the second was prepared no transaction was open
    rw [← cons_append, ← append_assoc] at htrace
    obtain ⟨d, a, d', hchronicle, hturn⟩ := exists_turn_of_trace htrace
    exact hchronicle.shut hturn.of_prepared before _ since rfl rfl
  · intro before f g after htrace
    obtain ⟨d, a, d', hchronicle, hturn⟩ := exists_turn_of_trace htrace
    obtain ⟨c, fence, hc, rfl, rfl, happlied, hfence, hmem⟩ := hturn.of_committed
    obtain ⟨f', earlier, since, hchapter⟩ := hchronicle.chapter c hc
    refine ⟨earlier, f', c.expected, c.proofs, since, hchapter.split, hchapter.within,
      hchapter.expected, fun hplain => ?_⟩
    obtain rfl : c.fence = f' := hchapter.own hplain
    refine ⟨rfl, hchapter.applied hplain happlied, fun hproofs => ?_, fun hfirst => ?_⟩
    · by_cases hchecked : .checked c.fence c.generation ∈ since
      · exact .inl (hchapter.checked hplain hchecked hproofs)
      · -- the check is in the history, and not in this chapter of it
        have hpast := hchronicle.checked fence c.generation hmem
        rw [hfence, hchapter.split] at hpast
        rcases mem_append.mp hpast with hpast | hpast
        · exact .inr ⟨hchecked, hpast⟩
        · rcases mem_cons.mp hpast with heq | hpast
          · cases heq
          · exact absurd hpast hchecked
    · rw [hchapter.split, hchapter.expected, ← singleton_append, ← append_assoc]
      rw [committedBy_append fun m hm => ⟨(hchapter.within m hm).2, hplain m hm,
        fun f'' g'' heq => hfirst f'' g'' (heq ▸ hm)⟩, committedBy_concat]
      rfl
  · rintro xs a ys - c c' hc hc' hphase
    rw [Machine.run_append] at hc'
    have hturn := turn_of_step lab ((generations lab).run (.start r now) xs) a
    rcases hturn.phase hc hc' hphase with heq | hms | hms | hms
    · exact .inl heq
    · exact .inr ⟨_, by simp, hms⟩
    · exact .inr ⟨_, by simp, hms⟩
    · exact .inr ⟨_, by simp, hms⟩

/-- The lab of `Records.sampleRecords` after these requests under its fence. -/
def sampleRun (acts : List GenerationAction) : GenerationNode :=
  (generations "lab").run (.start (sampleRecords none) 0) acts

/-- A generation is prepared and applied. -/
def sampleApply : List GenerationAction :=
  [.prepare sampleFence sampleRequest true,
    .applyStart sampleFence "g2" true, .applyFinish sampleFence "g2" true]

/-- The generation is committed by one of two requests that were both checked, is finalized
    and is prepared and applied once more, now with state to carry over. -/
def sampleRetried : List GenerationAction :=
  sampleApply ++
    [.commitBegin sampleFence "g2", .commitBegin sampleFence "g2",
      .commitEnd sampleFence "g2" none true, .finalize sampleFence "g2" true,
      .prepare sampleFence { sampleRequest with expected := "g2", stateProofs := ["r1"] } true,
      .applyStart sampleFence "g2" true, .applyFinish sampleFence "g2" true]

/-- A committed transaction that is asked to apply once more is applying, one that was
    to be rolled back is applied, and a commit that was checked for the transaction before
    commits one whose state is not verified. No recovery has been at any of them. -/
theorem applied_again :
    let committed := sampleRun (sampleApply ++ [.commitBegin sampleFence "g2",
      .commitEnd sampleFence "g2" none true])
    let again := sampleRun (sampleApply ++ [.commitBegin sampleFence "g2",
      .commitEnd sampleFence "g2" none true, .applyStart sampleFence "g2" true])
    let marked := sampleRun (sampleApply ++
      [.rollbackNeeded sampleFence "g2" "commit failed" true])
    let cleared := sampleRun (sampleApply ++
      [.rollbackNeeded sampleFence "g2" "commit failed" true,
        .applyStart sampleFence "g2" true, .applyFinish sampleFence "g2" true])
    let retried := sampleRun sampleRetried
    let unverified := sampleRun (sampleRetried ++ [.commitEnd sampleFence "g2" none true])
    (committed.records.course "lab").map (·.phase) = some .committed ∧
      committed.records.committed "lab" = "g2" ∧
      (again.records.course "lab").map (·.phase) = some .applying ∧
      again.records.committed "lab" = "g2" ∧
      (marked.records.course "lab").map (·.phase) = some .rollbackNeeded ∧
      (cleared.records.course "lab").map (·.phase) = some .applied ∧
      (retried.records.course "lab").map (fun c => (c.proofs, c.verified, c.phase)) =
        some (["r1"], false, .applied) ∧
      (unverified.records.course "lab").map (fun c => (c.proofs, c.verified, c.phase)) =
        some (["r1"], false, .committed) := by
  decide +kernel

end Agent

end Twinet
