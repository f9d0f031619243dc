import Twinet.Agent.Coordination
import Twinet.Lib.Fencing

/-!
# Fence Safety

What the leases of a node promise the rest of the cluster, over every run of
the lease operations with every save allowed to fail and the agent allowed to
crash between any two of them.

The node is viewed as one ledger per lab. The holder is the in-memory lease;
the bound is the generation counter *on disk*, not the one in memory. The
in-memory counter can be ahead of every fence ever handed out, because an
acquisition whose save fails raises it and grants nothing, and it falls back
when the agent restarts. The counter on disk never falls, and a grant is only
answered after the save that raised it.

`Durable` is the one invariant the view needs: memory is never behind disk.
Each primitive the operations are composed of is shown to be a `Moves`, and
the moves compose.

## Main definitions

* `leases`: The lease operations as a machine.
* `ledger`: A node seen as the ledger of one lab.
* `Durable`: Memory is never behind disk.
* `LeaseMoves`: The small steps an operation is made of.

## Theorems

* `accepts_iff_live`: A fence passes exactly when it is live and well formed.
* `LeaseMoves.keeps`: What every small step keeps, the operations keep.
* `moves_leaseStep`: Every lease operation moves the ledgers.
* `leases_refines`: The node refines the ledger of each lab.
* `fence_safety`: Generations increase, one fence passes, stale is final.
-/

namespace Twinet

namespace Agent

open Ledger Option AList Nat
open HolderStep

/-- The lease operations with the outcome of every fallible effect inside
    them. `tick` is time passing and `restart` a crash at any point between two
    operations; a crash inside one is a restart right after it, with the answer
    lost. -/
inductive LeaseOp where
  | acquire (req : LeaseAcquireRequest) (token : Option String) (ok : Bool)
  | acquireRecovery (lab : String) (token : Option String) (expiryOk ok : Bool)
  | renew (req : LeaseRenewRequest) (ok : Bool)
  | release (req : LeaseReleaseRequest) (ok : Bool)
  | require (lab : String) (fence : Fence) (d : Time) (ok : Bool)
  | expire
  | tick (d : Time)
  | restart (ok : Bool)

section

variable (n : Node) (lab : String)

/-- One lease operation and the fence it hands out, if it does. -/
def leaseStep : LeaseOp → Node × List (String × Fence)
  | .acquire req token ok =>
    match acquireMutationLease n req token ok with
    | (n', .ok resp) => (n', [(resp.lab, resp.fence)])
    | (n', .error _) => (n', [])
  | .acquireRecovery lab token expiryOk ok =>
    match acquireRecoveryFence n lab token expiryOk ok with
    | (n', .ok fence) => (n', [(lab, fence)])
    | (n', .error _) => (n', [])
  | .renew req ok => ((renewMutationLease n req ok).1, [])
  | .release req ok => ((releaseMutationLease n req ok).1, [])
  | .require lab fence d ok => ((requireMutationFence n lab fence d ok).1, [])
  | .expire => (n.expire.1, [])
  | .tick d => ({ n with now := n.now + d }, [])
  | .restart ok => (restart n ok, [])

/-- The node as a machine whose observations are the fences it hands out. -/
def leases : Machine Node LeaseOp (String × Fence) := ⟨leaseStep⟩

/-- The fence of an observation, if it was handed out for the lab. -/
def grantFor (o : String × Fence) : Option Fence :=
  if o.1 = lab then some o.2 else none

/-- The fences handed out for a lab along a run, oldest first. -/
def fencesFor (n : Node) (ops : List LeaseOp) : List Fence :=
  (leases.trace n ops).filterMap (grantFor lab)

/-- The fence passes the check every mutation makes, now. -/
def Node.accepts (fence : Fence) : Prop :=
  fenceError n.server lab fence n.now = none

instance Node.decidableAccepts (n : Node) (lab : String) (fence : Fence) :
    Decidable (n.accepts lab fence) := inferInstanceAs (Decidable (_ = none))

/-- An agent starting up over whatever an earlier one left on disk. -/
def boot (disk : Option CoordinationState) (now recoveryLeaseTTL : Time) (ok : Bool) : Node :=
  restart { server := initCoordination, disk := disk, now := now,
            recoveryLeaseTTL := recoveryLeaseTTL } ok

/-- The generation counter a restart would read back. -/
def Node.durableHighWater : Nat :=
  match n.disk with
  | none => 0
  | some disk => disk.highWater lab

/-- A node seen as the ledger of one lab. -/
def ledger (n : Node) : Ledger Fence where
  bound := n.durableHighWater lab
  holder := (n.server.mutations.lookup lab).map (fun lease => (lease.fence, lease.untilAt))
  now := n.now

/-- Memory is never behind disk. -/
def Durable : Prop :=
  ∀ lab, n.durableHighWater lab ≤ n.server.highWater lab

theorem fenceError_eq_none_iff {s : Server} {lab : String} {fence : Fence} {now : Time} :
    fenceError s lab fence now = none ↔ lab ≠ "" ∧
      ¬ (fence.token = "" ∨ fence.generation = 0) ∧ ∃ lease, s.mutations.lookup lab = some lease ∧
        now < lease.untilAt ∧ lease.fence = fence := by
  have hfence (held : Fence) : held.generation ≠ fence.generation ∨ held.token ≠ fence.token ↔
      held ≠ fence := by
    cases held
    cases fence
    simp only [ne_eq, Fence.mk.injEq, Decidable.not_and_iff_or_not, or_comm]
  fun_cases fenceError s lab fence now with
  | case1 hlab => simp [hlab]
  | case2 _ hform => simp [hform]
  | case3 _ _ hlook => simp [hlook]
  | case4 _ _ lease hlook hlate => simp [hlook, hlate]
  | case5 _ _ lease hlook _ hother => simp [hlook, (hfence _).mp hother]
  | case6 hlab hform lease hlook hlive hsame =>
    rw [hfence, not_not] at hsame
    simp only [true_iff]
    exact ⟨hlab, hform, lease, hlook, not_not.mp hlive, hsame⟩

/-- A fence passes exactly when it is live in the lab's ledger and well
    formed. -/
theorem accepts_iff_live (f : Fence) :
    n.accepts lab f ↔
      lab ≠ "" ∧ ¬ (f.token = "" ∨ f.generation = 0) ∧ (ledger lab n).Live f := by
  rw [Node.accepts, fenceError_eq_none_iff]
  refine and_congr_right fun _ => and_congr_right fun _ => ⟨?_, ?_⟩
  · rintro ⟨lease, hlook, hlive, rfl⟩
    exact ⟨lease.untilAt, by rw [ledger, hlook, map_some], hlive⟩
  · rintro ⟨d, hd, hlive⟩
    obtain ⟨lease, hlook, heq⟩ := map_eq_some_iff.mp hd
    cases heq
    exact ⟨lease, hlook, hlive, rfl⟩

/-- A transition that hands out the fences `granted` and moves the ledger of
    every lab accordingly. -/
structure Moves (n : Node) (granted : String → Option Fence) (n' : Node) : Prop where
  durable : Durable n → Durable n'
  move : Durable n → ∀ lab,
    Step Fence.generation (ledger lab n) (granted lab) (ledger lab n')

/-- No fence for any lab. -/
def noFence : String → Option Fence := fun _ => none

/-- The fence for one lab and none for the others. -/
def oneFence (fence : Fence) : String → Option Fence :=
  fun lab' => if lab = lab' then some fence else none

def LeaseOp.restarts : LeaseOp → Bool
  | restart _ => true
  | _ => false

theorem exists_lease_of_fenceError {s : Server} {lab : String} {fence : Fence} {now : Time}
    (h : fenceError s lab fence now = none) : ∃ lease, s.mutations.lookup lab = some lease ∧
      now < lease.untilAt ∧ lease.fence = fence :=
  (fenceError_eq_none_iff.mp h).2.2

theorem leaseTTL_pos (seconds : Int) : 0 < leaseTTL seconds := by
  have hdefault : defaultMutationLeaseSeconds = 90 := rfl
  have hmax : maxMutationLeaseSeconds = 600 := rfl
  have hsecond : 0 < second := by decide
  unfold leaseTTL
  refine Nat.mul_pos ?_ hsecond
  simp only [hdefault, hmax]
  split_ifs <;> omega

theorem Node.recoveryLeaseLimit_pos : 0 < n.recoveryLeaseLimit := by
  unfold Node.recoveryLeaseLimit
  split_ifs with hpos
  · exact hpos
  · decide

end

/-- The small steps the lease operations are made of, and the fences they hand out. -/
inductive LeaseMove : Node → (String → Option Fence) → Node → Prop
  | expire (n : Node) : LeaseMove n noFence n.expire.1
  | save (n : Node) (ok : Bool) : LeaseMove n noFence (saveCoordination n ok)
  | tick (n : Node) (d : Time) : LeaseMove n noFence { n with now := n.now + d }
  | issue {n : Node} {lab : String} (holder token : String) {ttl : Time} :
      n.server.mutations.lookup lab = none → 0 < ttl →
      LeaseMove n (oneFence lab (issueLease n lab holder token ttl).2)
        (saveCoordination (issueLease n lab holder token ttl).1 true)
  | miss {n : Node} {lab : String} (holder token : String) (ttl : Time) :
      n.server.mutations.lookup lab = none →
      LeaseMove n noFence (dropLease (issueLease n lab holder token ttl).1 lab)
  | extend {n : Node} {lab : String} {fence : Fence} {lease : ClusterLease} {deadline : Time} :
      fenceError n.server lab fence n.now = none → n.server.mutations.lookup lab = some lease →
      deadline ≠ 0 → LeaseMove n noFence (extendLease n lab fence lease deadline)
  | forget {n : Node} {lab : String} {fence : Fence} :
      fenceError n.server lab fence n.now = none → LeaseMove n noFence (forgetLease n lab fence)

/-- Small steps one after the other, of which only the last hands out a fence. -/
inductive LeaseMoves : Node → (String → Option Fence) → Node → Prop
  | refl (n : Node) : LeaseMoves n noFence n
  | head {n n₁ n' : Node} {granted : String → Option Fence} :
      LeaseMove n noFence n₁ → LeaseMoves n₁ granted n' → LeaseMoves n granted n'
  | last {n n' : Node} {granted : String → Option Fence} :
      LeaseMove n granted n' → LeaseMoves n granted n'

variable {granted : String → Option Fence} {n n' : Node}

/-- The induction rule for the small steps. -/
theorem LeaseMoves.keeps {P : Node → Prop} (h : LeaseMoves n granted n')
    (hstep : ∀ {n n' granted}, LeaseMove n granted n' → P n → P n') (hn : P n) : P n' := by
  induction h with
  | refl n => exact hn
  | head hmove _ ih => exact ih (hstep hmove hn)
  | last hmove => exact hstep hmove hn

theorem leaseMoves_saveIf (changed ok : Bool)
    (h : LeaseMoves (if changed then saveCoordination n ok else n) granted n') :
    LeaseMoves n granted n' := by
  cases changed with
  | false => exact h
  | true => exact .head (.save n ok) h

/-- What an acquisition hands out. -/
def grantedBy (result : Except LeaseError LeaseResponse) : String → Option Fence :=
  match result with
  | .ok resp => oneFence resp.lab resp.fence
  | .error _ => noFence

theorem leaseMoves_acquireMutationLease (n : Node) (req : LeaseAcquireRequest)
    (token : Option String) (ok : Bool) :
    LeaseMoves n (grantedBy (acquireMutationLease n req token ok).2)
      (acquireMutationLease n req token ok).1 := by
  fun_cases acquireMutationLease n req token ok with
  | case1 | case2 => exact .refl n
  | case3 | case4 | case5 =>
    -- Somebody holds the lease: refused whatever the transaction says.
    exact .last (.expire n)
  | case6 hlab token m hnone issued fence hissue hok =>
    cases hissue
    exact .head (.expire n) (.last (.issue req.holder token hnone (leaseTTL_pos _)))
  | case7 hlab token m hnone issued fence hissue hok =>
    cases hissue
    exact .head (.expire n) (.last (.miss req.holder token _ hnone))

/-- What a recovery acquisition hands out. -/
def grantedFence (lab : String) (result : Except LeaseError Fence) : String → Option Fence :=
  match result with
  | .ok fence => oneFence lab fence
  | .error _ => noFence

theorem leaseMoves_acquireRecoveryFence (n : Node) (lab : String) (token : Option String)
    (expiryOk ok : Bool) :
    LeaseMoves n (grantedFence lab (acquireRecoveryFence n lab token expiryOk ok).2)
      (acquireRecoveryFence n lab token expiryOk ok).1 := by
  unfold acquireRecoveryFence
  refine .head (.expire n) ?_
  simp only []
  by_cases hfail : (n.expire.2 && !expiryOk) = true
  · rw [if_pos hfail]
    exact .refl _
  rw [if_neg hfail]
  refine leaseMoves_saveIf n.expire.2 expiryOk ?_
  generalize (if n.expire.2 = true then saveCoordination n.expire.1 expiryOk else n.expire.1) = n₁
  cases hlook : n₁.server.mutations.lookup lab with
  | some held => exact .refl _
  | none =>
    cases token with
    | none => exact .refl _
    | some token =>
      cases ok with
      | true => exact .last (.issue "agent recovery" token hlook n₁.recoveryLeaseLimit_pos)
      | false => exact .last (.miss "agent recovery" token _ hlook)

theorem leaseMoves_renewMutationLease (n : Node) (req : LeaseRenewRequest) (ok : Bool) :
    LeaseMoves n noFence (renewMutationLease n req ok).1 := by
  unfold renewMutationLease
  refine .head (.expire n) ?_
  simp only []
  cases hpass : fenceError n.expire.1.server req.lab req.fence n.expire.1.now with
  | some err => exact leaseMoves_saveIf n.expire.2 ok (.refl _)
  | none =>
    simp only []
    cases hlook : n.expire.1.server.mutations.lookup req.lab with
    | none => exact .refl _
    | some lease =>
      simp only []
      have hdeadline : n.expire.1.now + leaseTTL req.ttlSeconds ≠ 0 :=
        Nat.ne_of_gt (Nat.add_pos_right _ (leaseTTL_pos _))
      refine .head (.extend hpass hlook hdeadline) ?_
      split
      · exact .refl _
      · exact leaseMoves_saveIf _ ok (.refl _)

theorem leaseMoves_releaseMutationLease (n : Node) (req : LeaseReleaseRequest) (ok : Bool) :
    LeaseMoves n noFence (releaseMutationLease n req ok).1 := by
  unfold releaseMutationLease
  refine .head (.expire n) ?_
  simp only []
  cases hpass : fenceError n.expire.1.server req.lab req.fence n.expire.1.now with
  | some err => exact leaseMoves_saveIf n.expire.2 ok (.refl _)
  | none =>
    simp only []
    refine .head (.forget hpass) ?_
    split
    · exact .refl _
    · exact leaseMoves_saveIf _ ok (.refl _)

theorem leaseMoves_requireMutationFence (n : Node) (lab : String) (fence : Fence) (d : Time)
    (ok : Bool) : LeaseMoves n noFence (requireMutationFence n lab fence d ok).1 := by
  unfold requireMutationFence
  refine .head (.expire n) ?_
  simp only []
  split
  · exact .last (.tick n.expire.1 d)
  · exact leaseMoves_saveIf n.expire.2 ok (.last (.tick _ d))

theorem Moves.quiet_trans {n₁ n₂ : Node} (h : Moves n noFence n₁)
    (h' : Moves n₁ granted n₂) : Moves n granted n₂ where
  durable := fun hd => h'.durable (h.durable hd)
  move := fun hd lab =>
    Step.quiet_trans Fence.generation (h.move hd lab) (h'.move (h.durable hd) lab)

/-- No fence is granted. -/
theorem moves_of_holder (hdurable : Durable n → Durable n') (hnow : n.now ≤ n'.now)
    (hbound : Durable n → ∀ lab, n.durableHighWater lab ≤ n'.durableHighWater lab)
    (hholder : ∀ lab, HolderStep (ledger lab n) (ledger lab n').holder) :
    Moves n noFence n' where
  durable := hdurable
  move := fun hd lab => ⟨hnow, hbound hd lab, fun _ => hholder lab, nofun⟩

theorem holder_kept {lab : String}
    (h : n'.server.mutations.lookup lab = n.server.mutations.lookup lab) :
    HolderStep (ledger lab n) (ledger lab n').holder := by
  have hsame : (ledger lab n').holder = (ledger lab n).holder := by simp only [ledger, h]
  rw [hsame]
  exact kept

theorem holder_dropped {lab : String} (h : n'.server.mutations.lookup lab = none) :
    HolderStep (ledger lab n) (ledger lab n').holder := by
  have hgone : (ledger lab n').holder = none := by simp [ledger, h]
  rw [hgone]
  exact dropped

theorem moves_refl (n : Node) : Moves n noFence n :=
  moves_of_holder id (le_refl _) (fun _ _ => le_refl _) fun _ => kept

theorem moves_tick (n : Node) (d : Time) : Moves n noFence { n with now := n.now + d } :=
  moves_of_holder id (le_add_right _ _) (fun _ _ => le_refl _) fun _ => kept

theorem moves_expire (n : Node) : Moves n noFence n.expire.1 := by
  refine moves_of_holder id (le_refl _) (fun _ _ => le_refl _) fun lab => ?_
  have hlook : n.expire.1.server.mutations.lookup lab =
      (n.server.mutations.lookup lab).bind fun lease =>
        if n.now < lease.untilAt then some lease else none := by
    simp [Node.expire, expireCoordination]
  cases hold : n.server.mutations.lookup lab with
  | none => exact holder_dropped (by rw [hlook, hold, bind_none])
  | some lease =>
    rw [hold, bind_some] at hlook
    by_cases hlive : n.now < lease.untilAt
    · exact holder_kept (by rw [hlook, if_pos hlive, hold])
    · exact holder_dropped (by rw [hlook, if_neg hlive])

@[simp]
theorem server_saveCoordination (n : Node) (ok : Bool) :
    (saveCoordination n ok).server = n.server := by
  cases ok with
  | false | true => rfl

@[simp]
theorem now_saveCoordination (n : Node) (ok : Bool) : (saveCoordination n ok).now = n.now := by
  cases ok with
  | false | true => rfl

theorem moves_save (n : Node) (ok : Bool) : Moves n noFence (saveCoordination n ok) := by
  cases ok with
  | false => exact moves_refl n
  | true =>
    exact moves_of_holder (fun _ _ => le_refl _) (le_refl _) id fun _ => kept

theorem moves_saveIf (n : Node) (changed ok : Bool) :
    Moves n noFence (if changed then saveCoordination n ok else n) := by
  cases changed with
  | false => exact moves_refl n
  | true => exact moves_save n ok

theorem highWater_issueLease (n : Node) (lab holder token : String) (ttl : Time) (lab' : String) :
    (issueLease n lab holder token ttl).1.server.highWater lab'
      = if lab' = lab then n.server.highWater lab + 1 else n.server.highWater lab' := by
  simp only [issueLease, CoordinationState.highWater]
  by_cases hlab : lab' = lab
  · rw [hlab, lookup_insert, if_pos rfl, getD_some]
  · rw [lookup_insert_ne hlab, if_neg hlab]

theorem le_highWater_issueLease (n : Node) (lab holder token : String) (ttl : Time)
    (lab' : String) : n.server.highWater lab' ≤
      (issueLease n lab holder token ttl).1.server.highWater lab' := by
  rw [highWater_issueLease]
  split_ifs with hlab
  · exact hlab ▸ Nat.le_succ _
  · exact le_rfl

theorem moves_issueLease_save (n : Node) (lab holder token : String) (ttl : Time) :
    Moves n (oneFence lab (issueLease n lab holder token ttl).2)
      (saveCoordination (issueLease n lab holder token ttl).1 true) := by
  constructor
  · exact fun _ _ => le_refl _
  · intro hd lab'
    have hbound : (ledger lab' (saveCoordination (issueLease n lab holder token ttl).1 true)).bound
        = if lab' = lab then n.server.highWater lab + 1 else n.server.highWater lab' :=
      highWater_issueLease n lab holder token ttl lab'
    have hold : (ledger lab' n).bound ≤ n.server.highWater lab' := hd lab'
    by_cases hlab : lab' = lab
    · subst hlab
      rw [if_pos rfl] at hbound
      refine ⟨le_refl _, by omega, fun hnone => ?_, fun f hf => ?_⟩
      · simp only [oneFence, if_true, reduceCtorEq] at hnone
      · simp only [oneFence, if_true, some.injEq] at hf
        subst hf
        have hgen : (issueLease n lab' holder token ttl).2.generation
            = n.server.highWater lab' + 1 := rfl
        refine ⟨by omega, by omega, n.now + ttl, ?_⟩
        simp [ledger, saveCoordination, issueLease]
    · rw [if_neg hlab] at hbound
      refine ⟨le_refl _, by omega, fun _ => holder_kept (lookup_insert_ne hlab),
        fun f hf => ?_⟩
      · rw [oneFence, if_neg (fun h => hlab h.symm)] at hf
        simp only [reduceCtorEq] at hf

theorem moves_issueLease_drop (n : Node) (lab holder token : String) (ttl : Time) :
    Moves n noFence (dropLease (issueLease n lab holder token ttl).1 lab) := by
  refine moves_of_holder (fun hd lab' => (hd lab').trans ?_) (le_refl _) (fun _ _ => le_refl _)
    fun lab' => ?_
  · exact le_highWater_issueLease n lab holder token ttl lab'
  · by_cases hlab : lab' = lab
    · exact holder_dropped (hlab ▸ lookup_erase _ _)
    · exact holder_kept ((lookup_erase_ne hlab).trans (lookup_insert_ne hlab))

theorem moves_extendLease (n : Node) (lab : String) (fence : Fence) (lease : ClusterLease)
    (deadline : Time) (hpass : fenceError n.server lab fence n.now = none)
    (hlook : n.server.mutations.lookup lab = some lease) :
    Moves n noFence (extendLease n lab fence lease deadline) := by
  refine moves_of_holder id (le_refl _) (fun _ _ => le_refl _) fun lab' => ?_
  by_cases hlab : lab' = lab
  · subst hlab
    rcases ((accepts_iff_live n lab' fence).mp hpass).2.2 with ⟨d, hd, hlt⟩
    have hlive : (ledger lab' n).Live lease.fence := by
      refine ⟨d, ?_, hlt⟩
      simp only [ledger, hlook, map_some, some.injEq, Prod.mk.injEq, true_and] at hd ⊢
      exact hd.2
    have hnew : (ledger lab' (extendLease n lab' fence lease deadline)).holder
        = some (lease.fence, deadline) := by
      simp [ledger, extendLease]
    rw [hnew]
    exact extended lease.fence deadline hlive
  · exact holder_kept (lookup_insert_ne hlab)

theorem moves_forgetLease (n : Node) (lab : String) (fence : Fence) :
    Moves n noFence (forgetLease n lab fence) := by
  refine moves_of_holder id (le_refl _) (fun _ _ => le_refl _) fun lab' => ?_
  by_cases hlab : lab' = lab
  · exact holder_dropped (hlab ▸ lookup_erase _ _)
  · exact holder_kept (lookup_erase_ne hlab)

theorem highWater_mergeCoordination (disk : CoordinationState) (now : Time) (lab : String) :
    (mergeCoordination initCoordination disk now).highWater lab = disk.highWater lab := by
  have hlook : (mergeCoordination initCoordination disk now).fenceHighWater.lookup lab
      = (disk.fenceHighWater.lookup lab).bind
        (fun generation => if generation > 0 then some generation else none) := by
    simp only [mergeCoordination, Table.lookup_mergeWith]
    exact or_none
  rw [CoordinationState.highWater, CoordinationState.highWater, hlook]
  cases disk.fenceHighWater.lookup lab with
  | none => rfl
  | some generation =>
    rw [bind_some, getD_some]
    by_cases hpos : generation > 0
    · rw [if_pos hpos, getD_some]
    · rw [if_neg hpos, getD_none]
      omega

theorem moves_forgetAll (n : Node) (s : Server) (hlease : ∀ lab, s.mutations.lookup lab = none)
    (hwater : ∀ lab, s.highWater lab = n.durableHighWater lab) :
    Moves n noFence { n with server := s } :=
  moves_of_holder (fun _ lab => le_of_eq (hwater lab).symm) (le_refl _) (fun _ _ => le_refl _)
    fun lab => holder_dropped (hlease lab)

theorem moves_restart (n : Node) (ok : Bool) : Moves n noFence (restart n ok) := by
  rcases n with ⟨server, disk, now, recoveryLeaseTTL⟩
  cases disk with
  | none => exact moves_forgetAll _ initCoordination (fun _ => rfl) (fun _ => rfl)
  | some disk =>
    refine (moves_forgetAll ⟨server, some disk, now, recoveryLeaseTTL⟩
      (mergeCoordination initCoordination disk now) (fun _ => rfl)
      (highWater_mergeCoordination disk now)).quiet_trans ?_
    exact (moves_expire _).quiet_trans (moves_saveIf _ (migrates disk now) ok)

theorem durable_restart (n : Node) (ok : Bool) : Durable (restart n ok) := by
  rcases n with ⟨server, disk, now, recoveryLeaseTTL⟩
  cases disk with
  | none =>
    exact (moves_restart ⟨initCoordination, none, now, recoveryLeaseTTL⟩ ok).durable
      (fun _ => le_refl _)
  | some disk =>
    exact (moves_restart ⟨{ disk with mutations := ∅ }, some disk, now, recoveryLeaseTTL⟩
      ok).durable (fun _ => le_refl _)

theorem filterMap_grantFor_single (lab lab' : String) (fence : Fence) :
    [(lab, fence)].filterMap (grantFor lab') = (oneFence lab fence lab').toList := by
  by_cases hlab : lab = lab'
  · simp [grantFor, oneFence, if_pos hlab]
  · simp [grantFor, oneFence, if_neg hlab]

theorem moves_leaseMove (h : LeaseMove n granted n') : Moves n granted n' := by
  cases h with
  | expire => exact moves_expire n
  | save ok => exact moves_save n ok
  | tick d => exact moves_tick n d
  | issue holder token hnone httl => exact moves_issueLease_save n _ holder token _
  | miss holder token ttl hnone => exact moves_issueLease_drop n _ holder token ttl
  | extend hpass hlook hdeadline => exact moves_extendLease n _ _ _ _ hpass hlook
  | forget hpass => exact moves_forgetLease n _ _

theorem LeaseMoves.moves (h : LeaseMoves n granted n') : Moves n granted n' := by
  induction h with
  | refl n => exact moves_refl n
  | head hmove _ ih => exact (moves_leaseMove hmove).quiet_trans ih
  | last hmove => exact moves_leaseMove hmove

theorem granted_leaseStep (n : Node) (op : LeaseOp) (hop : op.restarts = false) :
    ∃ granted : String → Option Fence,
      (∀ lab, (leaseStep n op).2.filterMap (grantFor lab) = (granted lab).toList) ∧
        LeaseMoves n granted (leaseStep n op).1 := by
  cases op with
  | acquire req token ok =>
    have hmoves := leaseMoves_acquireMutationLease n req token ok
    simp only [leaseStep]
    generalize acquireMutationLease n req token ok = result at hmoves
    rcases result with ⟨n', err | resp⟩
    · exact ⟨noFence, fun _ => rfl, hmoves⟩
    · exact ⟨oneFence resp.lab resp.fence,
        fun lab => filterMap_grantFor_single resp.lab lab resp.fence, hmoves⟩
  | acquireRecovery lab token expiryOk ok =>
    have hmoves := leaseMoves_acquireRecoveryFence n lab token expiryOk ok
    simp only [leaseStep]
    generalize acquireRecoveryFence n lab token expiryOk ok = result at hmoves
    rcases result with ⟨n', err | fence⟩
    · exact ⟨noFence, fun _ => rfl, hmoves⟩
    · exact ⟨oneFence lab fence, fun lab' => filterMap_grantFor_single lab lab' fence, hmoves⟩
  | renew req ok => exact ⟨noFence, fun _ => rfl, leaseMoves_renewMutationLease n req ok⟩
  | release req ok => exact ⟨noFence, fun _ => rfl, leaseMoves_releaseMutationLease n req ok⟩
  | require lab fence d ok =>
    exact ⟨noFence, fun _ => rfl, leaseMoves_requireMutationFence n lab fence d ok⟩
  | expire => exact ⟨noFence, fun _ => rfl, .last (.expire n)⟩
  | tick d => exact ⟨noFence, fun _ => rfl, .last (.tick n d)⟩
  | restart ok => cases hop

theorem leaseMoves_leaseStep (n : Node) (op : LeaseOp) (hop : op.restarts = false) :
    ∃ granted, LeaseMoves n granted (leaseStep n op).1 := by
  obtain ⟨granted, -, hmoves⟩ := granted_leaseStep n op hop
  exact ⟨granted, hmoves⟩

/-- Every operation moves the ledgers by what it hands out. -/
theorem moves_leaseStep (n : Node) (op : LeaseOp) :
    ∃ granted : String → Option Fence,
      (∀ lab, (leaseStep n op).2.filterMap (grantFor lab) = (granted lab).toList) ∧
        Moves n granted (leaseStep n op).1 := by
  cases hop : op.restarts with
  | false =>
    obtain ⟨granted, hout, hmoves⟩ := granted_leaseStep n op hop
    exact ⟨granted, hout, hmoves.moves⟩
  | true =>
    cases op with
    | restart ok => exact ⟨noFence, fun _ => rfl, moves_restart n ok⟩
    | _ => cases hop

/-- The view of one lab is a ledger. -/
theorem leases_refines (lab : String) :
    Refines Fence.generation leases (ledger lab) (grantFor lab) Durable where
  keeps := by
    intro n op hd
    rcases moves_leaseStep n op with ⟨granted, _, hmoves⟩
    exact hmoves.durable hd
  moves := by
    intro n op hd
    rcases moves_leaseStep n op with ⟨granted, hout, hmoves⟩
    exact ⟨granted lab, hout lab, hmoves.move hd lab⟩

/-- Fence safety of a node that started over any coordination file, for every
    lab and every run of lease operations: the generations handed out are
    strictly increasing, at most one fence passes the check at a time, and a
    granted fence that failed it never passes again. The generations are
    natural numbers: of a file that holds one close to `2 ^ 64`, which only
    that many leases could have written, this says nothing about the wrap. -/
theorem fence_safety (disk : Option CoordinationState) (now recoveryLeaseTTL : Time) (ok : Bool)
    (lab : String) :
    (∀ ops, (fencesFor lab (boot disk now recoveryLeaseTTL ok) ops).Pairwise
      (fun f g => f.generation < g.generation)) ∧
    (∀ ops f g, (leases.run (boot disk now recoveryLeaseTTL ok) ops).accepts lab f →
      (leases.run (boot disk now recoveryLeaseTTL ok) ops).accepts lab g → f = g) ∧
    (∀ ops later f, f ∈ fencesFor lab (boot disk now recoveryLeaseTTL ok) ops →
      ¬ (leases.run (boot disk now recoveryLeaseTTL ok) ops).accepts lab f →
      ¬ (leases.run (boot disk now recoveryLeaseTTL ok) (ops ++ later)).accepts lab f) := by
  have hboot : Durable (boot disk now recoveryLeaseTTL ok) := durable_restart _ ok
  generalize boot disk now recoveryLeaseTTL ok = n at hboot
  -- Nothing has been handed out yet, so any ledger agrees with the history.
  have hrun : ∀ ops, Consistent Fence.generation (fencesFor lab n ops)
      (ledger lab (leases.run n ops)) := by
    intro ops
    exact consistent_run Fence.generation (leases_refines lab) [] n ops hboot
      (consistent_nil Fence.generation _)
  refine ⟨fun ops => (hrun ops).increasing, ?_, ?_⟩
  · intro ops f g hf hg
    exact live_unique _ f g ((accepts_iff_live _ lab f).mp hf).2.2
      ((accepts_iff_live _ lab g).mp hg).2.2
  · intro ops later f hf hrejected haccepted
    rcases (accepts_iff_live _ lab f).mp haccepted with ⟨hlab, hform, hlive⟩
    have hstale : ¬ (ledger lab (leases.run n ops)).Live f := fun h =>
      hrejected ((accepts_iff_live _ lab f).mpr ⟨hlab, hform, h⟩)
    have hd : Durable (leases.run n ops) :=
      leases.invariant_run Durable (leases_refines lab).keeps n ops hboot
    rw [Machine.run_append] at hlive
    exact stale_run Fence.generation (leases_refines lab) _ _ later f hd (hrun ops) hf
      hstale hlive

end Agent

end Twinet
