import Twinet.Agent.Fence
import Twinet.Agent.Transaction

/-!
# The Journal Under Fences

A node's leases and its transaction journal taken together, for one lab.

A transaction is journaled with the generation of the fence it was prepared
under, and applying, committing and finalizing it go on only under a fence of
that generation. Recovery is not so strict: any fence that passes may roll a
transaction back or carry it forward, and only the latter makes the fence its
own.

Leases come and go, and their generations only grow. Once the lease a
transaction was committed under has lapsed, no fence of its generation is ever
handed out again: the transaction can be neither finalized nor replaced by a
later one, and it stays that way until it is abandoned or the lab is destroyed.

The journal and the generation counters are one file. What a restart reads back
is the journal that was last written, which can be behind the one in memory
where a write failed.

## Main definitions

* `JournalRequest.handle`: What a request under a fence does to the journal.
* `journals`: A node as a machine.
* `JournalInv`: What holds in every state.
* `Stranded`, `Closable`: A transaction nobody can finalize, and one somebody can.

## Theorems

* `handle_generation`, `handle_failed`, `handle_foreign`: What a request does to
  a journal.
* `journalInv_run`: The invariant holds in every run.
* `stranded_run`: A stranded transaction stays in the journal.
* `fresh_fence_strands`: A new fence strands whatever was committed before it.
* `closable_iff`: A committed transaction can be finalized as long as the fence
  it belongs to passes.
-/

namespace Twinet

namespace Agent

variable {lab : String} {n : LabNode} {fence : Fence} {f : Fate} {s : LabState}

/-- What a node records about one lab, and the generation of the fence its
    transaction belongs to. -/
structure Journal extends LabState where
  fenceGeneration : Nat
deriving DecidableEq, Repr

def Journal.empty : Journal where
  committed := ""
  inventory := none
  tx := none
  fenceGeneration := 0

/-- A node as far as one lab goes: its leases, the journal in memory, and the
    journal a restart reads back. -/
structure LabNode where
  node : Node
  journal : Journal
  saved : Journal

/-- A transaction is committed and not finalized. -/
def LabState.Pending (s : LabState) : Prop :=
  ∃ t, s.tx = some t ∧ t.committed = true

open LabState

theorem LabState.pending_iff : s.Pending ↔ s.tx.any (·.committed) = true := by
  unfold Pending
  cases s.tx with
  | none | some t => simp

instance LabState.decidablePending (s : LabState) : Decidable s.Pending :=
  decidable_of_iff _ pending_iff.symm

/-- How far carrying a transaction forward gets. -/
inductive ForwardReach where
  /-- It fails before the transaction is taken over. -/
  | refused
  /-- It fails before the commit, with everything applied or not. -/
  | resumed (applied : Bool)
  /-- It commits, and the finalization is not recorded. -/
  | committed
  | finished
deriving DecidableEq, Repr

/-- The requests that touch the journal of a lab. `mark` is the note of a phase
    that a handler leaves on its way. -/
inductive JournalRequest where
  | prepare (expected generation prestate : String)
  | apply (generation : String)
  | commit (generation : String)
  | finalize (generation : String)
  | recover (rollbackCommitted : Bool)
  | forward (reach : ForwardReach)
  | mark (generation : String) (phase : TransactionPhase)
  | destroy
deriving DecidableEq, Repr

open JournalRequest

/-- A transaction that is journaled now belongs to this fence. One that was
    prepared under it for the same generation is left as it is. -/
def prepareUnder (fence : Fence) (expected generation prestate : String) (f : Fate)
    (j : Journal) : Journal × Bool :=
  if generation ≠ "" ∧ j.tx.any (·.generation = generation) = true ∧
      j.fenceGeneration = fence.generation then (j, f.works)
  else
    let (s, ok) := handlePrepare expected generation prestate f j.toLabState
    ({ toLabState := s
       fenceGeneration := if j.tx = none ∧ s.tx ≠ none then fence.generation
         else j.fenceGeneration }, ok)

/-- The phases of an apply go on under the fence it was prepared under. -/
def continueUnder (fence : Fence) (handle : LabState → LabState × Bool) (j : Journal) :
    Journal × Bool :=
  if j.fenceGeneration = fence.generation then
    let (s, ok) := handle j.toLabState
    ({ toLabState := s, fenceGeneration := j.fenceGeneration }, ok)
  else (j, false)

def recoverUnder (rollbackCommitted : Bool) (f : Fate) (j : Journal) : Journal × Bool :=
  let (s, ok) := handleRecover rollbackCommitted f j.toLabState
  ({ toLabState := s, fenceGeneration := j.fenceGeneration }, ok)

/-- Carry a transaction on to the generation it was prepared for. A committed
    one is only looked at. -/
def forwardUnder (fence : Fence) (reach : ForwardReach) (f : Fate) (j : Journal) :
    Journal × Bool :=
  match j.tx with
  | none => recoverUnder false f j
  | some t =>
    if t.committed then recoverUnder false f j
    -- The start is journaled before anything else happens.
    else if f.journals then
      match reach with
      | .refused => ({ j with tx := some { t with phase := .rollbackFailed } }, false)
      | .resumed applied =>
        ({ j with
            tx := some { t with applied := applied, phase := .rollbackFailed }
            fenceGeneration := fence.generation }, false)
      | .committed =>
        ({ committed := t.generation, inventory := some t.generation
           tx := some { t with applied := true, committed := true, phase := .rollbackFailed }
           fenceGeneration := fence.generation }, false)
      | .finished =>
        ({ committed := t.generation, inventory := some t.generation, tx := none
           fenceGeneration := fence.generation }, true)
    else ({ j with tx := some { t with phase := .recovering } }, false)

/-- Note the phase a transaction is in. Only a commit notes that one. -/
def markUnder (generation : String) (phase : TransactionPhase) (f : Fate) (j : Journal) :
    Journal × Bool :=
  match j.tx with
  | none => (j, false)
  | some t =>
    if t.generation = generation ∧ phase ≠ .committed then
      ({ j with tx := some { t with phase := phase } }, f.journals)
    else (j, false)

/-- Forget a lab that has been taken down. -/
def destroyUnder (f : Fate) (j : Journal) : Journal × Bool :=
  if f.works then
    ({ committed := "", inventory := none, tx := none, fenceGeneration := j.fenceGeneration }, true)
  else (j, false)

def JournalRequest.handle (fence : Fence) (f : Fate) (j : Journal) :
    JournalRequest → Journal × Bool
  | prepare expected generation prestate => prepareUnder fence expected generation prestate f j
  | apply generation => continueUnder fence (handleApply generation f) j
  | commit generation => continueUnder fence (handleCommit generation f) j
  | finalize generation => continueUnder fence (handleFinalize generation f) j
  | recover rollbackCommitted => recoverUnder rollbackCommitted f j
  | forward reach => forwardUnder fence reach f j
  | mark generation phase => markUnder generation phase f j
  | destroy => destroyUnder f j

/-- The request gives up what the node holds of the lab. -/
def JournalRequest.abandons : JournalRequest → Bool
  | recover rollbackCommitted => rollbackCommitted
  | destroy => true
  | _ => false

/-- A lease operation, told whether a write it makes takes the journal along, or
    a request under a fence. -/
inductive JournalAction where
  | lease (op : LeaseOp) (written : Bool)
  | request (r : JournalRequest) (fence : Fence) (f : Fate)

def JournalAction.abandons : JournalAction → Bool
  | lease _ _ => false
  | request r _ _ => r.abandons

/-- One request, and whether it succeeds. What succeeded has been written. -/
def serve (lab : String) (r : JournalRequest) (fence : Fence) (f : Fate) (n : LabNode) :
    LabNode × Bool :=
  if f.delivered = true ∧ fenceError n.node.server lab fence n.node.now = none then
    let (j, ok) := r.handle fence f n.journal
    ({ n with journal := j, saved := if ok || f.journals then j else n.saved }, ok)
  else (n, false)

/-- One lease operation. A restart reads the journal back. -/
def leaseJournal (op : LeaseOp) (written : Bool) (n : LabNode) : LabNode :=
  let node := (leaseStep n.node op).1
  match op with
  | .restart _ => { node := node, journal := n.saved, saved := n.saved }
  | _ => { node := node, journal := n.journal, saved := if written then n.journal else n.saved }

/-- A node as a machine whose observations are the fences it hands out. -/
def journals (lab : String) : Machine LabNode JournalAction (String × Fence) where
  step n
    | .lease op written => (leaseJournal op written n, (leaseStep n.node op).2)
    | .request r fence f => ((serve lab r fence f n).1, [])

/-! ### What one request does -/

variable {generation : String}

theorem prepare_of_pending {expected prestate : String} (h : s.tx ≠ none) :
    handlePrepare expected generation prestate f s = (s, false) := by
  unfold handlePrepare prepareGeneration
  obtain ⟨t, ht⟩ := Option.ne_none_iff_exists'.mp h
  simp [ht]

theorem pending_apply : (handleApply generation f s).1.Pending ↔ s.Pending := by
  fun_cases handleApply generation f s <;> simp_all [Pending, journal]

theorem pending_commit_failed (hfail : (handleCommit generation f s).2 = false) :
    (handleCommit generation f s).1.Pending ↔ s.Pending := by
  revert hfail
  fun_cases handleCommit generation f s <;> simp_all [Pending, journal]

theorem finalize_failed (hfail : (handleFinalize generation f s).2 = false) :
    (handleFinalize generation f s).1 = s := by
  revert hfail
  fun_cases handleFinalize generation f s with
  | case2 => simp
  | _ => exact fun _ => rfl

theorem pending_of_recover {rollbackCommitted : Bool}
    (h : (handleRecover rollbackCommitted f s).1.Pending) : s.Pending := by
  revert h
  fun_cases handleRecover rollbackCommitted f s with
  | case1 | case7 => exact id
  | case6 => split_ifs <;> simp_all [Pending, journal]
  | _ => simp_all [Pending, journal, finishRecovered, reopenCommitted]

theorem pending_recover (h : s.Pending) :
    (handleRecover false f s).1.Pending := by
  obtain ⟨t, ht, hc⟩ := h
  fun_cases handleRecover false f s with
  | case2 | case7 => exact ⟨t, ht, hc⟩
  | _ => simp_all [Pending, journal]

variable {j : Journal}

theorem prepareUnder_of_tx {expected prestate : String} (h : j.tx ≠ none) :
    (prepareUnder fence expected generation prestate f j).1 = j := by
  unfold prepareUnder
  rw [prepare_of_pending h]
  split_ifs
  · rfl
  · simp [h]

variable {handle : LabState → LabState × Bool}

theorem continueUnder_foreign
    (h : j.fenceGeneration ≠ fence.generation) : continueUnder fence handle j = (j, false) :=
  if_neg h

theorem continueUnder_own (h : j.fenceGeneration = fence.generation) :
    continueUnder fence handle j =
      ({ toLabState := (handle j.toLabState).1, fenceGeneration := j.fenceGeneration },
        (handle j.toLabState).2) :=
  if_pos h

theorem continueUnder_generation :
    (continueUnder fence handle j).1.fenceGeneration = j.fenceGeneration := by
  unfold continueUnder
  split_ifs <;> rfl

/-- What a failed continuation leaves pending was so before, if its handler leaves
    nothing else pending. -/
theorem pending_of_continue (hfail : (continueUnder fence handle j).2 = false)
    (hkept : (handle j.toLabState).2 = false → (handle j.toLabState).1.Pending → j.Pending)
    (h : (continueUnder fence handle j).1.Pending) : j.Pending := by
  by_cases hown : j.fenceGeneration = fence.generation
  · rw [continueUnder_own hown] at h hfail
    exact hkept hfail h
  · rwa [continueUnder_foreign hown] at h

/-- A request gives the journal its own fence or none. -/
theorem handle_generation (r : JournalRequest) (fence : Fence) (f : Fate) (j : Journal) :
    (r.handle fence f j).1.fenceGeneration = j.fenceGeneration ∨
      (r.handle fence f j).1.fenceGeneration = fence.generation := by
  cases r with
  | prepare expected generation prestate =>
    simp only [handle, prepareUnder]
    split_ifs
    · exact .inl rfl
    · exact .inr rfl
    · exact .inl rfl
  | apply generation | commit generation | finalize generation =>
    exact .inl continueUnder_generation
  | recover rollbackCommitted => exact .inl rfl
  | forward reach =>
    simp only [handle]
    fun_cases forwardUnder fence reach f j with
    | case1 | case2 | case3 | case7 => exact .inl rfl
    | _ => exact .inr rfl
  | mark generation phase =>
    simp only [handle]
    fun_cases markUnder generation phase f j <;> exact .inl rfl
  | destroy =>
    simp only [handle, destroyUnder]
    split_ifs <;> exact .inl rfl

variable {r : JournalRequest}

/-- A failed request that was not written makes nothing pending. -/
theorem handle_failed (hfail : (r.handle fence f j).2 = false) (hlost : f.journals = false)
    (h : (r.handle fence f j).1.Pending) :
    j.Pending ∧ (r.handle fence f j).1.fenceGeneration = j.fenceGeneration := by
  cases r with
  | prepare expected generation prestate =>
    -- a preparation that was not written is undone in memory
    have hsame : handlePrepare expected generation prestate f j.toLabState =
        (j.toLabState, false) := by
      simp [handlePrepare, hlost]
    simp only [handle, prepareUnder, hsame] at h ⊢
    split_ifs at h ⊢ with hagain hnone
    · exact ⟨h, rfl⟩
    · exact absurd hnone.1 hnone.2
    · exact ⟨h, rfl⟩
  | apply generation =>
    exact ⟨pending_of_continue hfail (fun _ => pending_apply.mp) h, continueUnder_generation⟩
  | commit generation =>
    exact ⟨pending_of_continue hfail (fun hno => (pending_commit_failed hno).mp) h,
      continueUnder_generation⟩
  | finalize generation =>
    refine ⟨pending_of_continue hfail (fun hno hp => ?_) h, continueUnder_generation⟩
    rwa [finalize_failed hno] at hp
  | recover rollbackCommitted => exact ⟨pending_of_recover h, rfl⟩
  | forward reach =>
    revert h
    simp only [handle]
    fun_cases forwardUnder fence reach f j with
    | case1 | case2 => exact fun h => ⟨pending_of_recover h, rfl⟩
    | _ => simp_all [Pending]
  | mark generation phase =>
    revert h
    simp only [handle]
    fun_cases markUnder generation phase f j with
    | case2 t htx => exact fun h => ⟨⟨t, htx, by simpa [Pending] using h⟩, rfl⟩
    | _ => exact fun h => ⟨h, rfl⟩
  | destroy =>
    simp only [handle, destroyUnder] at h hfail ⊢
    split_ifs at h hfail ⊢
    exact ⟨h, rfl⟩

/-- A request under another fence leaves a committed transaction in the journal
    unless it gives it up. -/
theorem handle_foreign (h : j.Pending) (hkeep : r.abandons = false)
    (hforeign : j.fenceGeneration ≠ fence.generation) :
    (r.handle fence f j).1.Pending ∧
      (r.handle fence f j).1.fenceGeneration = j.fenceGeneration := by
  obtain ⟨t, ht, hc⟩ := h
  have hpending : j.Pending := ⟨t, ht, hc⟩
  cases r with
  | prepare expected generation prestate =>
    have hsome : j.tx ≠ none := by simp [ht]
    simp only [handle, prepareUnder_of_tx hsome]
    exact ⟨hpending, trivial⟩
  | apply generation | commit generation | finalize generation =>
    simp only [handle, continueUnder_foreign hforeign]
    exact ⟨hpending, trivial⟩
  | recover rollbackCommitted =>
    obtain rfl : rollbackCommitted = false := hkeep
    exact ⟨pending_recover hpending, rfl⟩
  | forward reach =>
    simp only [handle, forwardUnder, ht, hc, if_true]
    exact ⟨pending_recover hpending, rfl⟩
  | mark generation phase =>
    simp only [handle, markUnder, ht]
    split_ifs
    · exact ⟨⟨_, rfl, hc⟩, rfl⟩
    · exact ⟨hpending, rfl⟩
  | destroy => simp [abandons] at hkeep

/-! ### What a node keeps -/

/-- The generation has been handed out, and no fence of it passes. -/
def Lapsed (lab : String) (n : Node) (g : Nat) : Prop :=
  Ledger.Spent Fence.generation (fun f => lab ≠ "" ∧ ¬ (f.token = "" ∨ f.generation = 0))
    (ledger lab n) g

theorem lapsed_iff {n : Node} {g : Nat} :
    Lapsed lab n g ↔
      g ≤ n.durableHighWater lab ∧ ∀ f, n.accepts lab f → f.generation ≠ g := by
  unfold Lapsed Ledger.Spent
  refine and_congr Iff.rfl (forall_congr' fun f => ?_)
  rw [accepts_iff_live]
  exact ⟨fun h hf => h ⟨hf.1, hf.2.1⟩ hf.2.2, fun h hf hlive => h ⟨hf.1, hf.2, hlive⟩⟩

variable (disk : Option CoordinationState) (op : LeaseOp) (written : Bool)

theorem lapsed_leaseStep {n : Node} {g : Nat} (hd : Durable n)
    (h : Lapsed lab n g) : Lapsed lab (leaseStep n op).1 g := by
  rcases moves_leaseStep n op with ⟨granted, -, hmoves⟩
  exact Ledger.spent_step Fence.generation h (hmoves.move hd lab)

/-- What holds in every state a node gets to: no transaction belongs to a
    generation above the counter on disk, and a commit is on disk. -/
structure JournalInv (lab : String) (n : LabNode) : Prop where
  durable : Durable n.node
  holder : Ledger.Bounded Fence.generation (ledger lab n.node)
  journal : n.journal.fenceGeneration ≤ n.node.durableHighWater lab
  saved : n.saved.fenceGeneration ≤ n.node.durableHighWater lab
  written : n.journal.Pending →
    n.saved.Pending ∧ n.saved.fenceGeneration = n.journal.fenceGeneration

theorem JournalInv.le_of_accepts (h : JournalInv lab n) {f : Fence}
    (hf : n.node.accepts lab f) : f.generation ≤ n.node.durableHighWater lab := by
  obtain ⟨d, hd, -⟩ := ((accepts_iff_live _ lab f).mp hf).2.2
  exact h.holder f d hd

theorem leaseJournal_node (n : LabNode) :
    (leaseJournal op written n).node = (leaseStep n.node op).1 := by
  cases op <;> rfl

theorem leaseJournal_journals (n : LabNode) :
    ((leaseJournal op written n).journal = n.journal ∧
        ((leaseJournal op written n).saved = n.saved ∨
          (leaseJournal op written n).saved = n.journal)) ∨
      ((leaseJournal op written n).journal = n.saved ∧
        (leaseJournal op written n).saved = n.saved) := by
  cases op with
  | restart ok => exact .inr ⟨rfl, rfl⟩
  | _ =>
    refine .inl ⟨rfl, ?_⟩
    cases written with
    | false => exact .inl rfl
    | true => exact .inr rfl

theorem leaseJournal_keeps (P : Journal → Prop) (hj : P n.journal) (hs : P n.saved) :
    P (leaseJournal op written n).journal ∧ P (leaseJournal op written n).saved := by
  rcases leaseJournal_journals op written n with ⟨h, h' | h'⟩ | ⟨h, h'⟩ <;> rw [h, h'] <;>
    exact ⟨‹_›, ‹_›⟩

theorem journalInv_lease (h : JournalInv lab n) : JournalInv lab (leaseJournal op written n) := by
  rcases moves_leaseStep n.node op with ⟨granted, -, hmoves⟩
  have hmove := hmoves.move h.durable lab
  have hraised : n.node.durableHighWater lab ≤ (leaseStep n.node op).1.durableHighWater lab :=
    hmove.raised
  have hnode := leaseJournal_node op written n
  have hkept := leaseJournal_keeps op written
    (·.fenceGeneration ≤ (leaseStep n.node op).1.durableHighWater lab)
    (h.journal.trans hraised) (h.saved.trans hraised)
  rw [← hnode] at hkept hmove hmoves
  refine ⟨hmoves.durable h.durable, Ledger.bounded_step Fence.generation h.holder hmove, hkept.1,
    hkept.2, ?_⟩
  rcases leaseJournal_journals op written n with ⟨hj, hs | hs⟩ | ⟨hj, hs⟩
  · rw [hj, hs]; exact h.written
  · rw [hj, hs]; exact fun hp => ⟨hp, rfl⟩
  · rw [hj, hs]; exact fun hp => ⟨hp, rfl⟩

theorem journalInv_serve (r : JournalRequest) (fence : Fence)
    (f : Fate) (h : JournalInv lab n) : JournalInv lab (serve lab r fence f n).1 := by
  unfold serve
  by_cases hpass : f.delivered = true ∧ fenceError n.node.server lab fence n.node.now = none
  · rw [if_pos hpass]
    have hle : (r.handle fence f n.journal).1.fenceGeneration ≤ n.node.durableHighWater lab := by
      rcases handle_generation r fence f n.journal with heq | heq
      · rw [heq]
        exact h.journal
      · rw [heq]
        exact h.le_of_accepts hpass.2
    by_cases hwrite : ((r.handle fence f n.journal).2 || f.journals) = true
    · simp only [hwrite, if_true]
      exact ⟨h.durable, h.holder, hle, hle, fun hp => ⟨hp, rfl⟩⟩
    · simp only [if_neg hwrite]
      simp only [Bool.not_eq_true, Bool.or_eq_false_iff] at hwrite
      refine ⟨h.durable, h.holder, hle, h.saved, fun hp => ?_⟩
      -- Nothing was written, so the commit was there before.
      obtain ⟨hpending, hgen⟩ := handle_failed hwrite.1 hwrite.2 hp
      rw [hgen]
      exact h.written hpending
  · rw [if_neg hpass]
    exact h

theorem journalInv_step (n : LabNode) (a : JournalAction) (h : JournalInv lab n) :
    JournalInv lab ((journals lab).step n a).1 := by
  cases a with
  | lease op written => exact journalInv_lease op written h
  | request r fence f => exact journalInv_serve r fence f h

/-- A node that starts over any coordination file and has not seen the lab. -/
def LabNode.boot (disk : Option CoordinationState) (now recoveryLeaseTTL : Time) (ok : Bool) :
    LabNode where
  node := Agent.boot disk now recoveryLeaseTTL ok
  journal := Journal.empty
  saved := Journal.empty

theorem boot_holder (now recoveryLeaseTTL : Time) (ok : Bool)
    (lab : String) : (ledger lab (Agent.boot disk now recoveryLeaseTTL ok)).holder = none := by
  unfold Agent.boot restart loadCoordination
  cases disk with
  | none => rfl
  | some disk =>
    simp only
    split_ifs <;> cases ok <;> rfl

theorem journalInv_boot (now recoveryLeaseTTL : Time) (ok : Bool)
    (lab : String) : JournalInv lab (LabNode.boot disk now recoveryLeaseTTL ok) where
  durable := durable_restart _ ok
  holder := by
    intro f d hf
    rw [LabNode.boot, boot_holder] at hf
    cases hf
  journal := Nat.zero_le _
  saved := Nat.zero_le _
  written := by
    rintro ⟨t, ht, -⟩
    cases ht

/-! ### Transactions whose fence has lapsed -/

/-- A committed transaction, in memory and on disk, that belongs to a fence
    which does not pass any more. -/
structure Stranded (lab : String) (n : LabNode) : Prop where
  durable : Durable n.node
  journal : n.journal.Pending ∧ Lapsed lab n.node n.journal.fenceGeneration
  saved : n.saved.Pending ∧ Lapsed lab n.node n.saved.fenceGeneration

theorem stranded_step (n : LabNode) (a : JournalAction) (h : Stranded lab n)
    (hkeep : a.abandons = false) : Stranded lab ((journals lab).step n a).1 := by
  cases a with
  | lease op written =>
    rcases moves_leaseStep n.node op with ⟨granted, -, hmoves⟩
    have hkept := leaseJournal_keeps op written
      (fun j => j.Pending ∧ Lapsed lab (leaseStep n.node op).1 j.fenceGeneration)
      (h.journal.imp_right (lapsed_leaseStep op h.durable))
      (h.saved.imp_right (lapsed_leaseStep op h.durable))
    rw [← leaseJournal_node op written n] at hkept hmoves
    exact ⟨hmoves.durable h.durable, hkept.1, hkept.2⟩
  | request r fence f =>
    simp only [journals, serve]
    by_cases hpass : f.delivered = true ∧ fenceError n.node.server lab fence n.node.now = none
    · rw [if_pos hpass]
      -- a request that passes is not under the lease of the journal
      have hforeign : n.journal.fenceGeneration ≠ fence.generation :=
        fun heq => (lapsed_iff.mp h.journal.2).2 fence hpass.2 heq.symm
      obtain ⟨hpending, hgen⟩ := handle_foreign (f := f) h.journal.1 hkeep hforeign
      have hkept : (r.handle fence f n.journal).1.Pending ∧
          Lapsed lab n.node (r.handle fence f n.journal).1.fenceGeneration :=
        ⟨hpending, by rw [hgen]; exact h.journal.2⟩
      refine ⟨h.durable, hkept, ?_⟩
      simp only
      split_ifs
      · exact hkept
      · exact h.saved
    · rw [if_neg hpass]
      exact h

/-- A stranded transaction stays in the journal for as long as nobody gives it
    up. -/
theorem stranded_run {acts : List JournalAction}
    (h : Stranded lab n)
    (hkeep : (journals lab).Along (fun _ a => a.abandons = false) n acts) :
    Stranded lab ((journals lab).run n acts) :=
  (journals lab).invariant_along (Stranded lab) stranded_step h hkeep

theorem JournalInv.stranded (h : JournalInv lab n)
    (hpending : n.journal.Pending)
    (hforeign : ∀ f, n.node.accepts lab f → f.generation ≠ n.journal.fenceGeneration) :
    Stranded lab n := by
  obtain ⟨hsaved, hgen⟩ := h.written hpending
  have hlapsed : Lapsed lab n.node n.journal.fenceGeneration :=
    lapsed_iff.mpr ⟨h.journal, hforeign⟩
  exact ⟨h.durable, ⟨hpending, hlapsed⟩, hsaved, by rw [hgen]; exact hlapsed⟩

/-- A new fence strands whatever was committed before it: its generation is
    above the counter, and every other fence is stale. -/
theorem fresh_fence_strands (h : JournalInv lab n)
    (hpending : n.journal.Pending) {op : LeaseOp} {written : Bool} {f : Fence}
    (hgrant : f ∈ (leaseStep n.node op).2.filterMap (grantFor lab)) :
    Stranded lab (leaseJournal op written n) := by
  rcases moves_leaseStep n.node op with ⟨granted, hout, hmoves⟩
  rw [hout lab, Option.mem_toList] at hgrant
  obtain ⟨hnew, -, d, hholder⟩ := (hmoves.move h.durable lab).fresh f hgrant
  have hop : ∀ ok, op ≠ .restart ok := by
    rintro ok rfl
    have hnone : (granted lab).toList = [] := (hout lab).symm
    rw [hgrant] at hnone
    cases hnone
  have hjournal : (leaseJournal op written n).journal = n.journal := by
    cases op with
    | restart ok => exact absurd rfl (hop ok)
    | _ => rfl
  refine (journalInv_lease op written h).stranded (by rw [hjournal]; exact hpending) ?_
  intro f' hf'
  rw [leaseJournal_node] at hf'
  obtain ⟨d', hd', -⟩ := ((accepts_iff_live _ lab f').mp hf').2.2
  obtain ⟨rfl, -⟩ : f = f' ∧ d = d' := by
    rw [hholder, Option.some.injEq, Prod.mk.injEq] at hd'
    exact hd'
  rw [hjournal]
  have hold : n.journal.fenceGeneration ≤ (ledger lab n.node).bound := h.journal
  omega

/-- There is a way on from here, without giving anything up, that takes the
    transaction out of the journal. -/
def Closable (lab : String) (n : LabNode) : Prop :=
  ∃ acts, (journals lab).Along (fun _ a => a.abandons = false) n acts ∧
    ((journals lab).run n acts).journal.tx = none

theorem Stranded.not_closable (h : Stranded lab n) :
    ¬ Closable lab n := by
  rintro ⟨acts, hkeep, hnone⟩
  obtain ⟨t, ht, -⟩ := (stranded_run h hkeep).journal.1
  rw [hnone] at ht
  cases ht

theorem finalize_iff {t : Transaction}
    (ht : n.journal.tx = some t) (hc : t.committed = true) (hpass : n.node.accepts lab fence)
    (hf : f.delivered = true ∧ f.works = true) :
    (serve lab (.finalize t.generation) fence f n).2 = true ↔
      n.journal.fenceGeneration = fence.generation := by
  unfold serve
  rw [if_pos ⟨hf.1, hpass⟩]
  simp only [handle]
  constructor
  · intro hok
    by_contra hforeign
    rw [continueUnder_foreign hforeign] at hok
    cases hok
  · intro hown
    rw [continueUnder_own hown]
    simp [handleFinalize, ht, hc, hf]

theorem finalize_done (hok : (serve lab (.finalize generation) fence f n).2 = true) :
    (serve lab (.finalize generation) fence f n).1.journal.tx = none ∧
      (serve lab (.finalize generation) fence f n).1.node = n.node := by
  unfold serve at hok ⊢
  by_cases hpass : f.delivered = true ∧ fenceError n.node.server lab fence n.node.now = none
  · rw [if_pos hpass] at hok ⊢
    refine ⟨?_, rfl⟩
    simp only [handle, continueUnder] at hok ⊢
    by_cases hown : n.journal.fenceGeneration = fence.generation
    · rw [if_pos hown] at hok ⊢
      revert hok
      fun_cases handleFinalize generation f n.journal.toLabState with
      | case2 => exact fun _ => rfl
      | _ => simp
    · rw [if_neg hown] at hok
      cases hok
  · rw [if_neg hpass] at hok
    cases hok

/-- A committed transaction can be finalized as long as the fence it belongs to
    passes, and never after that. -/
theorem closable_iff (h : JournalInv lab n)
    (hpending : n.journal.Pending) :
    Closable lab n ↔
      ∃ f, n.node.accepts lab f ∧ f.generation = n.journal.fenceGeneration := by
  constructor
  · intro hclosable
    by_contra hforeign
    exact (h.stranded hpending fun f hf heq => hforeign ⟨f, hf, heq⟩).not_closable hclosable
  · rintro ⟨fence, hpass, hgen⟩
    obtain ⟨t, ht, hc⟩ := hpending
    refine ⟨[.request (.finalize t.generation) fence ⟨true, true, true, true, true⟩],
      ⟨rfl, trivial⟩, ?_⟩
    exact (finalize_done ((finalize_iff ht hc hpass ⟨rfl, rfl⟩).mpr hgen.symm)).1

end Agent

end Twinet
