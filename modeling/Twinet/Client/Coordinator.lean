import Mathlib.Data.Fintype.Basic
import Twinet.Agent.Fence

/-!
# Coordinators

Any number of controllers that mutate the labs of one cluster. Each takes a lease
on every node, in the order of their names, and gives back what it has when one
is refused. With the lease it asks every node to prepare, to apply, to commit and
to finalize, and waits between two of these until every node has answered.

The nodes are agents with their leases. What they answer to the phases of an
apply is left open, so a run of the machine here is any interleaving of the
controllers with any behaviour of the nodes. A request can fail to arrive, and
an answer can be lost. The answer to an acquisition carries the fence, and with
it the only means to give the lease back.

## Main definitions

* `acquireStep`: One step of an acquisition or of its rollback.
* `applyStep`: One step of the phases of an apply.
* `coordination`: The controllers and the nodes as one machine.
* `Initial`: A cluster on which nobody has begun.

## Theorems

* `leaseStep_holder`: Where the leases of a node come from.
* `acquisition_bounded`: An acquisition is over after a number of its own steps.
* `coordinators_agree`: Agreement, barriers, and what an acquisition leaves.
-/

namespace Twinet

namespace Client

open Agent List Option AList Function

/-! ### The leases of a node -/

section Leases

variable {n n' : Node} {lab : String}

/-- A node has a lease of a lab with a given holder and fence. -/
def HeldBy (n : Node) (lab holder : String) (fence : Fence) : Prop :=
  ∃ lease, n.server.mutations.lookup lab = some lease ∧ lease.holder = holder ∧ lease.fence = fence

variable {holder : String} {fence : Fence} {granted : String → Option Fence}

theorem heldBy_leaseMove (hmove : LeaseMove n granted n') (h : HeldBy n' lab holder fence) :
    HeldBy n lab holder fence ∨ granted lab = some fence := by
  obtain ⟨lease, hlook, hlease⟩ := h
  cases hmove with
  | expire =>
    simp only [Node.expire, expireCoordination, Table.lookup_filterMap,
      bind_eq_some_iff] at hlook
    obtain ⟨lease', hlook', hlive⟩ := hlook
    split_ifs at hlive
    obtain rfl := some.inj hlive
    exact .inl ⟨_, hlook', hlease⟩
  | save ok => exact .inl ⟨lease, server_saveCoordination n ok ▸ hlook, hlease⟩
  | tick d => exact .inl ⟨lease, hlook, hlease⟩
  | @issue lab' =>
    rcases Table.lookup_insert_eq_some.mp hlook with ⟨rfl, rfl⟩ | ⟨-, hlook⟩
    · exact .inr (by rw [← hlease.2, oneFence, if_pos rfl]; rfl)
    · exact .inl ⟨lease, hlook, hlease⟩
  | @miss lab' =>
    obtain ⟨hl, hlook⟩ := Table.lookup_erase_eq_some.mp hlook
    exact .inl ⟨lease, (lookup_insert_ne hl).symm.trans hlook, hlease⟩
  | @extend lab' _ lease' _ _ hlook' =>
    rcases Table.lookup_insert_eq_some.mp hlook with ⟨rfl, rfl⟩ | ⟨-, hlook⟩
    · exact .inl ⟨lease', hlook', hlease⟩
    · exact .inl ⟨lease, hlook, hlease⟩
  | @forget lab' => exact .inl ⟨lease, (Table.lookup_erase_eq_some.mp hlook).2, hlease⟩

theorem heldBy_leaseMoves (hmoves : LeaseMoves n granted n') (h : HeldBy n' lab holder fence) :
    HeldBy n lab holder fence ∨ granted lab = some fence := by
  induction hmoves with
  | refl n => exact .inl h
  | head hmove _ ih =>
    rcases ih h with hold | hgranted
    · exact .inl ((heldBy_leaseMove hmove hold).resolve_right nofun)
    · exact .inr hgranted
  | last hmove => exact heldBy_leaseMove hmove h

theorem heldBy_quiet (hmoves : LeaseMoves n noFence n') (h : HeldBy n' lab holder fence) :
    HeldBy n lab holder fence :=
  (heldBy_leaseMoves hmoves h).resolve_right nofun

section Issued

variable {token : Option String} {ok : Bool}

theorem holder_acquire {req : LeaseAcquireRequest} {resp : LeaseResponse} :
    (acquireMutationLease n req token ok).2 = .ok resp → resp.lab = req.lab ∧
      ((acquireMutationLease n req token ok).1.server.mutations.lookup req.lab).map (·.holder) =
        some req.holder := by
  fun_cases acquireMutationLease n req token ok with
  | case6 _ token m hnone issued fence hissue =>
    rintro ⟨⟩
    cases hissue
    exact ⟨rfl, congrArg _ (lookup_insert _)⟩
  | _ =>
    intro h
    cases h

theorem holder_recovery {lab : String} {expiryOk : Bool} :
    (acquireRecoveryFence n lab token expiryOk ok).2 = .ok fence →
      ((acquireRecoveryFence n lab token expiryOk ok).1.server.mutations.lookup lab).map
        (·.holder) = some "agent recovery" := by
  fun_cases acquireRecoveryFence n lab token expiryOk ok with
  | case4 m changed _ _ n₁ hnone token issued fence hissue =>
    rintro -
    cases hissue
    exact congrArg _ (lookup_insert _)
  | _ => nofun

theorem HeldBy.eq_holder (h : HeldBy n lab holder fence) {holder' : String}
    (hlook : (n.server.mutations.lookup lab).map (·.holder) = some holder') : holder = holder' := by
  obtain ⟨lease, hlease, rfl, -⟩ := h
  rw [hlease] at hlook
  exact some.inj hlook

theorem heldBy_acquire {req : LeaseAcquireRequest}
    (h : HeldBy (acquireMutationLease n req token ok).1 lab holder fence) :
    HeldBy n lab holder fence ∨
      lab = req.lab ∧ holder = req.holder ∧
        ∃ resp, (acquireMutationLease n req token ok).2 = .ok resp ∧ resp.fence = fence := by
  refine (heldBy_leaseMoves (leaseMoves_acquireMutationLease n req token ok) h).imp_right ?_
  cases hresult : (acquireMutationLease n req token ok).2 with
  | error err => nofun
  | ok resp =>
    intro hgranted
    obtain ⟨hlab, hholder⟩ := holder_acquire hresult
    simp only [grantedBy, oneFence, ite_eq_iff, some.injEq, hlab] at hgranted
    obtain ⟨rfl, hfence⟩ := hgranted.resolve_right (by simp)
    exact ⟨rfl, h.eq_holder hholder, resp, rfl, hfence⟩

theorem heldBy_recovery {lab' : String} {expiryOk : Bool}
    (h : HeldBy (acquireRecoveryFence n lab' token expiryOk ok).1 lab holder fence) :
    HeldBy n lab holder fence ∨ holder = "agent recovery" := by
  refine (heldBy_leaseMoves (leaseMoves_acquireRecoveryFence n lab' token expiryOk ok) h).imp_right
    ?_
  cases hresult : (acquireRecoveryFence n lab' token expiryOk ok).2 with
  | error err => nofun
  | ok resp =>
    intro hgranted
    simp only [grantedFence, oneFence, ite_eq_iff] at hgranted
    obtain ⟨rfl, -⟩ := hgranted.resolve_right (by simp)
    exact h.eq_holder (holder_recovery hresult)

end Issued

theorem heldBy_release {req : LeaseReleaseRequest} {ok : Bool}
    (h : HeldBy (releaseMutationLease n req ok).1 lab holder fence) :
    HeldBy n lab holder fence ∧ ((releaseMutationLease n req ok).2 = none → lab ≠ req.lab) := by
  refine ⟨heldBy_quiet (leaseMoves_releaseMutationLease n req ok) h, ?_⟩
  rintro hnone rfl
  obtain ⟨lease, hlook, -⟩ := h
  revert hnone hlook
  fun_cases releaseMutationLease n req ok with
  | case3 m changed hexpire hpass changed' m' hsaved =>
    rintro - hlook
    have hgone : m'.server.mutations.lookup req.lab = none := lookup_erase _ _
    rw [apply_ite Node.server, server_saveCoordination, ite_self, hgone] at hlook
    nomatch hlook
  | _ => nofun

/-- Who is named as the holder of a lease an operation issues. -/
def issuer : LeaseOp → Option String
  | .acquire req _ _ => some req.holder
  | .acquireRecovery _ _ _ _ => some "agent recovery"
  | _ => none

/-- A lease was there before or is in the name of its issuer. -/
theorem leaseStep_holder {op : LeaseOp} (h : HeldBy (leaseStep n op).1 lab holder fence) :
    HeldBy n lab holder fence ∨ issuer op = some holder := by
  cases op with
  | acquire req token ok =>
    have h' : HeldBy (acquireMutationLease n req token ok).1 lab holder fence := by
      unfold leaseStep at h
      rcases hrun : acquireMutationLease n req token ok with ⟨m, _ | resp⟩
      all_goals simpa [hrun] using h
    rcases heldBy_acquire h' with hold | ⟨-, rfl, -⟩
    · exact .inl hold
    · exact .inr rfl
  | acquireRecovery lab' token expiryOk ok =>
    have h' : HeldBy (acquireRecoveryFence n lab' token expiryOk ok).1 lab holder fence := by
      unfold leaseStep at h
      rcases hrun : acquireRecoveryFence n lab' token expiryOk ok with ⟨m, _ | resp⟩
      all_goals simpa [hrun] using h
    rcases heldBy_recovery h' with hold | rfl
    · exact .inl hold
    · exact .inr rfl
  | renew req ok => exact .inl (heldBy_quiet (leaseMoves_renewMutationLease n req ok) h)
  | release req ok => exact .inl (heldBy_release h).1
  | require lab' fence' d ok =>
    exact .inl (heldBy_quiet (leaseMoves_requireMutationFence n lab' fence' d ok) h)
  | expire => exact .inl (heldBy_quiet (.last (.expire n)) h)
  | tick d => exact .inl h
  | restart ok =>
    -- A restarted agent has no lease.
    have hnone : ∀ {m : Node}, m.server.mutations = ∅ → ¬ HeldBy m lab holder fence := by
      rintro m hm ⟨lease, hlease, -⟩
      rw [hm, lookup_empty] at hlease
      nomatch hlease
    have h' : HeldBy (restart n ok) lab holder fence := h
    rcases n with ⟨server, disk, now, recoveryLeaseTTL⟩
    cases disk with
    | none => exact absurd h' (hnone rfl)
    | some disk =>
      have hmoves := heldBy_quiet (.head (.expire _) (leaseMoves_saveIf _ _ (.refl _))) h'
      exact absurd hmoves (hnone rfl)

end Leases

/-! ### Controllers -/

section Machine

variable {ι κ : Type} [DecidableEq ι] [DecidableEq κ]

inductive ApplyPhase where
  | prepare
  | apply
  | commit
  | finalize
deriving DecidableEq, Repr

/-- What a controller is to apply. -/
structure ApplyPlan (ι : Type) where
  lab : String
  onlySteps : Bool
  /-- The generation asked for, the hash of the topology, and the digest of its
      serialisation; the first that is not empty is used. -/
  generation : String
  hash : String
  digest : String
  /-- The nodes with state to verify before the commit. -/
  proofs : ι → Bool

def generatedGeneration (p : ApplyPlan ι) (current : String) : String :=
  if p.onlySteps ∧ current ≠ "" then current
  else if p.generation ≠ "" then p.generation
  else if p.hash ≠ "" then p.hash
  else p.digest

/-- A request of a phase. -/
structure ApplyMessage (ι : Type) where
  phase : ApplyPhase
  node : ι
  expected : String
  generation : String
deriving DecidableEq, Repr

/-- Where a controller is. Fences are kept in the order in which they are given
    back. -/
inductive Stage (ι : Type) where
  | acquiring (rest : List ι) (fences : List (ι × Fence))
  | rollingBack (fences : List (ι × Fence))
  | refused
  | leased (fences : List (ι × Fence))
  | asking (phase : ApplyPhase) (expected generation : String) (asked answered : Finset ι)
      (failed : Bool)
  | verifying (rest : List ι) (expected generation : String)
  /-- The mutation did not commit. -/
  | failed
  /-- It committed, and did not complete. -/
  | committed
  | done (expected generation : String)
deriving DecidableEq

/-- The nodes in the order of their names, and the controllers with the names
    they draw at random. -/
structure ClusterSetup (ι κ : Type) where
  nodes : List ι
  complete : ∀ i, i ∈ nodes
  plan : κ → ApplyPlan ι
  holder : κ → String
  distinct : Injective holder
  /-- The names anyone else takes leases under. -/
  foreign : String → Bool
  unused : ∀ c, foreign (holder c) = false
  recovery : foreign "agent recovery" = true

structure ClusterState (ι κ : Type) where
  agents : ι → Node
  stage : κ → Stage ι

/-- What becomes of a request for a lease, or to give one back. -/
structure LeaseFate where
  delivered : Bool
  token : Option String
  saved : Bool
  answered : Bool
deriving DecidableEq, Repr

/-- What a controller with its leases does, and what it is answered. -/
inductive ApplyMove (ι : Type) where
  /-- The generations of all nodes were read to be one, or something before the
      first phase failed. -/
  | start (expected : String) (ready : Bool)
  | ask (i : ι)
  | answer (i : ι) (good : Bool)
  /-- All answers of a phase are in; the lease and what else is checked may have
      been lost. -/
  | proceed (checked : Bool)
  | verify (good : Bool)

inductive ClusterAction (ι κ : Type) where
  /-- The next step of an acquisition. -/
  | advance (c : κ) (fate : LeaseFate)
  | move (c : κ) (m : ApplyMove ι)
  /-- Something else happens on a node. -/
  | operate (i : ι) (op : LeaseOp)

inductive ClusterEvent (ι κ : Type) where
  | asked (c : κ) (m : ApplyMessage ι)
  | acked (c : κ) (m : ApplyMessage ι)
  | verified (c : κ) (i : ι) (generation : String)
  /-- A lease was granted, and the answer lost. -/
  | lostGrant (c : κ) (i : ι)
  /-- A lease was asked to be given back, and not seen to be. -/
  | unreleased (c : κ) (i : ι)
deriving DecidableEq

def mutationLeaseSeconds : Int := 90

variable (k : ClusterSetup ι κ)

def acquireRequest (c : κ) : LeaseAcquireRequest :=
  { lab := (k.plan c).lab, holder := k.holder c, ttlSeconds := mutationLeaseSeconds }

/-- Ask the next node for a lease. -/
def acquireNode (c : κ) (fate : LeaseFate) (n : Node) : Node × Option Fence :=
  if fate.delivered then
    match acquireMutationLease n (acquireRequest k c) fate.token fate.saved with
    | (n', .ok resp) => (n', some resp.fence)
    | (n', .error _) => (n', none)
  else (n, none)

/-- Ask a node to take a lease back. -/
def releaseNode (c : κ) (fate : LeaseFate) (fence : Fence) (n : Node) : Node × Bool :=
  if fate.delivered then
    let (n', err) :=
      releaseMutationLease n { lab := (k.plan c).lab, fence := fence } fate.saved
    (n', err = none)
  else (n, false)

variable {k}

def ClusterState.setStage (s : ClusterState ι κ) (c : κ) (stage : Stage ι) : ClusterState ι κ :=
  { s with stage := update s.stage c stage }

def ClusterState.setAgent (s : ClusterState ι κ) (i : ι) (n : Node) : ClusterState ι κ :=
  { s with agents := update s.agents i n }

variable (k)

/-- One step of an acquisition, or of the rollback of a failed one. -/
def acquireStep (s : ClusterState ι κ) (c : κ) (fate : LeaseFate) :
    ClusterState ι κ × List (ClusterEvent ι κ) :=
  match s.stage c with
  | .acquiring [] fences => (s.setStage c (.leased fences), [])
  | .acquiring (i :: rest) fences =>
    let (n, granted) := acquireNode k c fate (s.agents i)
    match granted with
    | some fence =>
      if fate.answered then
        ((s.setAgent i n).setStage c (.acquiring rest ((i, fence) :: fences)), [])
      else ((s.setAgent i n).setStage c (.rollingBack fences), [.lostGrant c i])
    | none => ((s.setAgent i n).setStage c (.rollingBack fences), [])
  | .rollingBack [] => (s.setStage c .refused, [])
  | .rollingBack ((i, fence) :: fences) =>
    let (n, released) := releaseNode k c fate fence (s.agents i)
    ((s.setAgent i n).setStage c (.rollingBack fences),
      if released && fate.answered then [] else [.unreleased c i])
  | _ => (s, [])

/-- What follows when every node has acknowledged a phase. -/
def nextStage (c : κ) (expected generation : String) : ApplyPhase → Stage ι
  | .prepare => .asking .apply expected generation ∅ ∅ false
  | .apply => .verifying (k.nodes.filter (k.plan c).proofs) expected generation
  | .commit => .asking .finalize expected generation ∅ ∅ false
  | .finalize => .done expected generation

/-- The lease and the images are checked after the apply, and the lease and the
    inventory after the end. -/
def checksAfter : ApplyPhase → Bool
  | .apply | .finalize => true
  | .prepare | .commit => false

/-- What becomes of an apply one of whose phases failed. -/
def failedStage : ApplyPhase → Stage ι
  | .finalize => .committed
  | _ => .failed

/-- One step of an apply. -/
def applyStep (c : κ) : Stage ι → ApplyMove ι → Stage ι × List (ClusterEvent ι κ)
  | .leased _, .start expected ready =>
    let generation := generatedGeneration (k.plan c) expected
    if ready && generation ≠ "" then
      (.asking .prepare expected generation ∅ ∅ false, [])
    else (.failed, [])
  | .asking phase expected generation asked answered failed, .ask i =>
    if i ∈ asked then (.asking phase expected generation asked answered failed, [])
    else
      (.asking phase expected generation (insert i asked) answered failed,
        [.asked c ⟨phase, i, expected, generation⟩])
  | .asking phase expected generation asked answered failed, .answer i good =>
    if i ∈ asked ∧ i ∉ answered then
      (.asking phase expected generation asked (insert i answered) (failed || !good),
        if good then [.acked c ⟨phase, i, expected, generation⟩] else [])
    else (.asking phase expected generation asked answered failed, [])
  | .asking phase expected generation asked answered failed, .proceed checked =>
    if k.nodes.all (· ∈ answered) then
      if failed || (checksAfter phase && !checked) then (failedStage phase, [])
      else (nextStage k c expected generation phase, [])
    else (.asking phase expected generation asked answered failed, [])
  | .verifying [] expected generation, .proceed _ =>
    (.asking .commit expected generation ∅ ∅ false, [])
  | .verifying (i :: rest) expected generation, .verify good =>
    if good then (.verifying rest expected generation, [.verified c i generation])
    else (.failed, [])
  | stage, _ => (stage, [])

/-- One step of the cluster. -/
def clusterStep (s : ClusterState ι κ) :
    ClusterAction ι κ → ClusterState ι κ × List (ClusterEvent ι κ)
  | .advance c fate => acquireStep k s c fate
  | .move c m => (s.setStage c (applyStep k c (s.stage c) m).1, (applyStep k c (s.stage c) m).2)
  | .operate i op =>
    if (issuer op).all k.foreign then (s.setAgent i (leaseStep (s.agents i) op).1, [])
    else (s, [])

/-- The cluster and its controllers. -/
def coordination : Machine (ClusterState ι κ) (ClusterAction ι κ) (ClusterEvent ι κ) :=
  ⟨clusterStep k⟩

/-- Every controller is about to ask for its leases, and nobody has taken one in
    its name. -/
structure Initial (s : ClusterState ι κ) : Prop where
  stage : ∀ c, s.stage c = .acquiring k.nodes []
  fresh : ∀ c i lab fence, ¬ HeldBy (s.agents i) lab (k.holder c) fence

end Machine

/-! ### Acquisitions end -/

section Acquisitions

variable {ι κ : Type} [DecidableEq κ]

theorem setStage_self (s : ClusterState ι κ) (c : κ) (stage : Stage ι) :
    (s.setStage c stage).stage c = stage := by
  simp [ClusterState.setStage]

theorem setStage_of_ne {s : ClusterState ι κ} {c c' : κ} (h : c ≠ c') (stage : Stage ι) :
    (s.setStage c' stage).stage c = s.stage c := update_of_ne h _ _

/-- The most steps an acquisition still has to make. -/
def Stage.acquisition : Stage ι → Nat
  | .acquiring rest fences => 2 * rest.length + fences.length + 2
  | .rollingBack fences => fences.length + 1
  | _ => 0

/-- The steps of one acquisition. -/
def advances (c : κ) : ClusterAction ι κ → Bool
  | .advance c' _ => c' = c
  | _ => false

variable [DecidableEq ι] {k : ClusterSetup ι κ} {s : ClusterState ι κ} {c : κ}

theorem acquireStep_acquisition (fate : LeaseFate) :
    ((acquireStep k s c fate).1.stage c).acquisition ≤ (s.stage c).acquisition - 1 := by
  fun_cases acquireStep k s c fate with
  | case7 hleased hnext hrefused hback =>
    cases hstage : s.stage c with
    | acquiring rest fences =>
      cases rest with
      | nil => cases hleased fences hstage
      | cons i rest => cases hnext i rest fences hstage
    | rollingBack fences =>
      cases fences with
      | nil => cases hrefused hstage
      | cons x fences => cases hback x.1 x.2 fences hstage
    | _ => exact Nat.le_refl 0
  | _ =>
    simp only [setStage_self, Stage.acquisition, length_cons, *]
    omega

theorem acquireStep_stage_of_ne {c' : κ} (h : c ≠ c') (fate : LeaseFate) :
    (acquireStep k s c' fate).1.stage c = s.stage c := by
  fun_cases acquireStep k s c' fate with
  | case7 => rfl
  | _ => exact setStage_of_ne h _

omit [DecidableEq κ] in
theorem applyStep_acquisition (stage : Stage ι) (m : ApplyMove ι) :
    (applyStep k c stage m).1.acquisition = stage.acquisition := by
  fun_cases applyStep k c stage m with
  | case7 phase | case8 phase => cases phase <;> rfl
  | _ => rfl

theorem clusterStep_acquisition (a : ClusterAction ι κ) :
    ((clusterStep k s a).1.stage c).acquisition ≤
      (s.stage c).acquisition - if advances c a then 1 else 0 := by
  cases a with
  | advance c' fate =>
    by_cases hc : c' = c
    · subst hc
      simpa [advances, clusterStep] using acquireStep_acquisition (k := k) (s := s) (c := c') fate
    · have hkeep := acquireStep_stage_of_ne (k := k) (s := s) (Ne.symm hc) fate
      simp [advances, hc, clusterStep, hkeep]
  | move c' m =>
    by_cases hc : c = c'
    · subst hc
      simp [advances, clusterStep, setStage_self, applyStep_acquisition]
    · simp [advances, clusterStep, setStage_of_ne hc]
  | operate i op =>
    have hkeep : (clusterStep k s (.operate i op)).1.stage c = s.stage c := by
      simp only [clusterStep]
      split_ifs <;> rfl
    simp [advances, hkeep]

/-- An acquisition is over after a number of its own steps, whatever the others
    do meanwhile. -/
theorem acquisition_bounded (as : List (ClusterAction ι κ)) :
    (((coordination k).run s as).stage c).acquisition ≤
      (s.stage c).acquisition - as.countP (advances c) := by
  induction as generalizing s with
  | nil => simp [Machine.run]
  | cons a as ih =>
    have hstep := clusterStep_acquisition (k := k) (s := s) (c := c) a
    have hrest := ih (s := (clusterStep k s a).1)
    rw [countP_cons]
    refine le_trans hrest ?_
    split_ifs at hstep ⊢
    all_goals omega

end Acquisitions

/-! ### What an acquisition leaves -/

section Leftovers

variable {ι κ : Type} [DecidableEq ι] [DecidableEq κ] {k : ClusterSetup ι κ}
  {s : ClusterState ι κ} {c : κ} {i : ι} {lab holder : String} {fence : Fence}
  {hist : List (ClusterEvent ι κ)}

/-- What a controller knows of a lease on a node, or why it does not. -/
def Accounted (hist : List (ClusterEvent ι κ)) (c : κ) (i : ι) (fence : Fence) : Stage ι → Prop
  | .acquiring _ fences => (i, fence) ∈ fences
  | .rollingBack fences =>
    (i, fence) ∈ fences ∨ .lostGrant c i ∈ hist ∨ .unreleased c i ∈ hist
  | .refused => .lostGrant c i ∈ hist ∨ .unreleased c i ∈ hist
  | _ => True

/-- Every lease in the name of a controller is for its lab and accounted for. -/
def AcquisitionInv (k : ClusterSetup ι κ) (hist : List (ClusterEvent ι κ))
    (s : ClusterState ι κ) : Prop :=
  ∀ c i lab fence, HeldBy (s.agents i) lab (k.holder c) fence →
    lab = (k.plan c).lab ∧ Accounted hist c i fence (s.stage c)

omit [DecidableEq ι] [DecidableEq κ] in
theorem Accounted.mono {hist' : List (ClusterEvent ι κ)} {stage : Stage ι}
    (h : Accounted hist c i fence stage) : Accounted (hist ++ hist') c i fence stage := by
  cases stage with
  | rollingBack fences =>
    exact h.imp_right (Or.imp (mem_append_left _) (mem_append_left _))
  | refused => exact h.imp (mem_append_left _) (mem_append_left _)
  | _ => exact h

variable {n : Node}

omit [DecidableEq ι] [DecidableEq κ] in
theorem heldBy_acquireNode {fate : LeaseFate} {n' : Node} {granted : Option Fence}
    (hrun : acquireNode k c fate n = (n', granted)) (h : HeldBy n' lab holder fence) :
    HeldBy n lab holder fence ∨
      lab = (k.plan c).lab ∧ holder = k.holder c ∧ granted = some fence := by
  have hacq := @heldBy_acquire n lab holder fence fate.token fate.saved (acquireRequest k c)
  revert hrun
  fun_cases acquireNode k c fate n with
  | case1 hdelivered n' resp hrun =>
    rintro ⟨⟩
    rw [hrun] at hacq
    refine (hacq h).imp_right ?_
    rintro ⟨hl, hh, _, ⟨⟩, hf⟩
    exact ⟨hl, hh, congrArg some hf⟩
  | case2 hdelivered n' err hrun =>
    rintro ⟨⟩
    rw [hrun] at hacq
    exact (hacq h).imp_right nofun
  | case3 hlost =>
    rintro ⟨⟩
    exact .inl h

omit [DecidableEq ι] [DecidableEq κ] in
theorem heldBy_releaseNode {fate : LeaseFate} {given : Fence} {n' : Node} {released : Bool}
    (hrun : releaseNode k c fate given n = (n', released)) (h : HeldBy n' lab holder fence) :
    HeldBy n lab holder fence ∧ (released = true → lab ≠ (k.plan c).lab) := by
  revert hrun
  fun_cases releaseNode k c fate given n with
  | case1 hdelivered n' err hrun =>
    rintro ⟨⟩
    have hrel := @heldBy_release n lab holder fence ⟨(k.plan c).lab, given⟩ fate.saved
    rw [hrun] at hrel
    exact (hrel h).imp_right fun hgone hok => hgone (of_decide_eq_true hok)
  | case2 hlost =>
    rintro ⟨⟩
    exact ⟨h, nofun⟩

omit [DecidableEq κ] in
theorem heldBy_setAgent {j : ι} :
    HeldBy ((s.setAgent i n).agents j) lab holder fence ↔
      if j = i then HeldBy n lab holder fence else HeldBy (s.agents j) lab holder fence := by
  by_cases hj : j = i
  · subst hj
    simp [ClusterState.setAgent]
  · simp [ClusterState.setAgent, hj]

variable {evs : List (ClusterEvent ι κ)} {stage : Stage ι}

omit [DecidableEq ι] in
/-- One controller goes on, and only it may have a lease that was not there before. -/
theorem AcquisitionInv.turn {s' : ClusterState ι κ} (h : AcquisitionInv k hist s)
    (hstage : s'.stage = s.stage)
    (hother : ∀ c' j lab fence, HeldBy (s'.agents j) lab (k.holder c') fence →
      HeldBy (s.agents j) lab (k.holder c') fence ∨
        c' = c ∧ lab = (k.plan c).lab ∧ Accounted (hist ++ evs) c j fence stage)
    (hown : ∀ j fence, HeldBy (s'.agents j) (k.plan c).lab (k.holder c) fence →
      Accounted hist c j fence (s.stage c) → Accounted (hist ++ evs) c j fence stage) :
    AcquisitionInv k (hist ++ evs) (s'.setStage c stage) := by
  intro c' j lab fence hheld
  rcases hother c' j lab fence hheld with hold | ⟨rfl, hnew⟩
  · obtain ⟨rfl, hacc⟩ := h c' j lab fence hold
    refine ⟨rfl, ?_⟩
    by_cases hc : c' = c
    · subst hc
      rw [setStage_self]
      exact hown j fence hheld hacc
    · rw [setStage_of_ne hc, hstage]
      exact hacc.mono
  · rwa [setStage_self]

omit [DecidableEq ι] in
theorem AcquisitionInv.setStage (h : AcquisitionInv k hist s)
    (hown : ∀ i fence, Accounted hist c i fence (s.stage c) → Accounted hist c i fence stage) :
    AcquisitionInv k (hist ++ evs) (s.setStage c stage) :=
  h.turn rfl (fun _ _ _ _ => .inl) fun j fence _ hacc => (hown j fence hacc).mono

variable {fences : List (ι × Fence)}

theorem acquireNode_inv {fate : LeaseFate} {rest : List ι} {granted : Option Fence}
    (h : AcquisitionInv k hist s) (hstage : s.stage c = .acquiring (i :: rest) fences)
    (hrun : acquireNode k c fate (s.agents i) = (n, granted))
    (hnew : ∀ fence, granted = some fence → Accounted (hist ++ evs) c i fence stage)
    (hown : ∀ j fence, (j, fence) ∈ fences → Accounted (hist ++ evs) c j fence stage) :
    AcquisitionInv k (hist ++ evs) ((s.setAgent i n).setStage c stage) := by
  refine h.turn rfl (fun c' j lab fence hheld => ?_) fun j fence _ hacc => ?_
  · rw [heldBy_setAgent] at hheld
    split_ifs at hheld with hj
    · subst hj
      refine (heldBy_acquireNode hrun hheld).imp_right ?_
      rintro ⟨hl, hh, hg⟩
      exact ⟨k.distinct hh, hl, hnew fence hg⟩
    · exact .inl hheld
  · rw [hstage] at hacc
    exact hown j fence hacc

theorem releaseNode_inv {fate : LeaseFate} {given : Fence} {released : Bool}
    (h : AcquisitionInv k hist s) (hstage : s.stage c = .rollingBack ((i, given) :: fences))
    (hrun : releaseNode k c fate given (s.agents i) = (n, released))
    (hleft : released = false → .unreleased c i ∈ hist ++ evs) :
    AcquisitionInv k (hist ++ evs) ((s.setAgent i n).setStage c (.rollingBack fences)) := by
  refine h.turn rfl (fun c' j lab fence hheld => .inl ?_) fun j fence hheld hacc => ?_
  · rw [heldBy_setAgent] at hheld
    split_ifs at hheld with hj
    · exact hj ▸ (heldBy_releaseNode hrun hheld).1
    · exact hheld
  · rw [hstage] at hacc
    by_cases hj : j = i
    · -- had it succeeded, the lease would be gone
      rw [heldBy_setAgent, if_pos hj] at hheld
      have hgone := (heldBy_releaseNode hrun hheld).2
      exact hj ▸ .inr (.inr (hleft (Bool.eq_false_iff.mpr fun hok => hgone hok rfl)))
    · refine hacc.imp (fun hmem => ?_) (Or.imp (mem_append_left _) (mem_append_left _))
      exact (mem_cons.mp hmem).resolve_left fun heq => hj (congrArg Prod.fst heq)

theorem acquireStep_inv (fate : LeaseFate) (h : AcquisitionInv k hist s) :
    AcquisitionInv k (hist ++ (acquireStep k s c fate).2) (acquireStep k s c fate).1 := by
  fun_cases acquireStep k s c fate with
  | case1 fences hstage => exact h.setStage fun _ _ _ => trivial
  | case2 i rest fences hstage n fence hanswered hrun =>
    refine acquireNode_inv h hstage hrun ?_ fun j fence' => mem_cons_of_mem _
    rintro _ ⟨⟩
    exact mem_cons_self
  | case3 i rest fences hstage n fence hlost hrun =>
    refine acquireNode_inv h hstage hrun (fun _ _ => .inr (.inl ?_)) fun j fence' => .inl
    exact mem_append_right _ mem_cons_self
  | case4 i rest fences hstage n hrun =>
    exact acquireNode_inv h hstage hrun nofun fun j fence' => .inl
  | case5 hstage =>
    refine h.setStage fun i fence hacc => ?_
    rw [hstage] at hacc
    exact hacc.resolve_left (by simp)
  | case6 i given fences hstage n released hrun =>
    exact releaseNode_inv h hstage hrun fun hnot => by simp [hnot]
  | case7 => rwa [append_nil]

omit [DecidableEq κ] in
theorem applyStep_accounted {stage : Stage ι} {m : ApplyMove ι}
    (h : Accounted hist c i fence stage) : Accounted hist c i fence (applyStep k c stage m).1 := by
  fun_cases applyStep k c stage m with
  | case7 phase | case8 phase => cases phase <;> trivial
  | case13 => exact h
  | _ => trivial

theorem clusterStep_acquisitionInv (a : ClusterAction ι κ) (h : AcquisitionInv k hist s) :
    AcquisitionInv k (hist ++ (clusterStep k s a).2) (clusterStep k s a).1 := by
  cases a with
  | advance c fate => exact acquireStep_inv fate h
  | move c m => exact h.setStage fun _ _ => applyStep_accounted
  | operate i op =>
    simp only [clusterStep]
    split_ifs with hforeign
    · intro c' j lab fence hheld
      rw [heldBy_setAgent] at hheld
      have hback : HeldBy (s.agents j) lab (k.holder c') fence := by
        split_ifs at hheld with hj
        · subst hj
          refine (leaseStep_holder hheld).resolve_right fun hissuer => ?_
          -- Nobody else takes leases in the name of a controller.
          rw [hissuer, all_some, k.unused] at hforeign
          exact Bool.false_ne_true hforeign
        · exact hheld
      obtain ⟨hl, hacc⟩ := h c' j lab fence hback
      exact ⟨hl, hacc.mono⟩
    · rwa [append_nil]

end Leftovers

/-! ### Barriers and agreement -/

section Agreement

variable {ι κ : Type} [DecidableEq ι] [DecidableEq κ] {k : ClusterSetup ι κ}
  {s : ClusterState ι κ} {c : κ} {hist evs : List (ClusterEvent ι κ)}

/-- Every node acknowledged a phase. -/
def AckedAll (hist : List (ClusterEvent ι κ)) (c : κ) (phase : ApplyPhase)
    (expected generation : String) : Prop :=
  ∀ i, .acked c ⟨phase, i, expected, generation⟩ ∈ hist

/-- Every node with state to verify has verified it. -/
def VerifiedAll (k : ClusterSetup ι κ) (hist : List (ClusterEvent ι κ)) (c : κ)
    (generation : String) : Prop :=
  ∀ i, (k.plan c).proofs i = true → .verified c i generation ∈ hist

/-- What has to be behind a controller before it asks for a phase. -/
def PhaseReady (k : ClusterSetup ι κ) (hist : List (ClusterEvent ι κ)) (c : κ)
    (expected generation : String) : ApplyPhase → Prop
  | .prepare => True
  | .apply => AckedAll hist c .prepare expected generation
  | .commit =>
    AckedAll hist c .prepare expected generation ∧ AckedAll hist c .apply expected generation ∧
      VerifiedAll k hist c generation
  | .finalize =>
    AckedAll hist c .prepare expected generation ∧ AckedAll hist c .apply expected generation ∧
      AckedAll hist c .commit expected generation

/-- No request is made before what has to come before it. -/
def Barrier (k : ClusterSetup ι κ) (hist : List (ClusterEvent ι κ)) (c : κ) : Prop :=
  ∀ pre m post, hist = pre ++ .asked c m :: post →
    PhaseReady k pre c m.expected m.generation m.phase

/-- What the stage of a controller says about what happened. -/
def StageInv (k : ClusterSetup ι κ) (hist : List (ClusterEvent ι κ)) (c : κ) : Stage ι → Prop
  | .asking phase expected generation _ answered failed =>
    generation = generatedGeneration (k.plan c) expected ∧
      PhaseReady k hist c expected generation phase ∧
      (failed = false → ∀ i ∈ answered, .acked c ⟨phase, i, expected, generation⟩ ∈ hist)
  | .verifying rest expected generation =>
    generation = generatedGeneration (k.plan c) expected ∧
      AckedAll hist c .prepare expected generation ∧ AckedAll hist c .apply expected generation ∧
      ∀ i, (k.plan c).proofs i = true → i ∈ rest ∨ .verified c i generation ∈ hist
  | .done expected generation =>
    generation = generatedGeneration (k.plan c) expected ∧
      ∀ phase, AckedAll hist c phase expected generation
  | _ => True

def ApplyInv (k : ClusterSetup ι κ) (hist : List (ClusterEvent ι κ))
    (s : ClusterState ι κ) : Prop :=
  ∀ c, Barrier k hist c ∧ StageInv k hist c (s.stage c)

section Monotone

omit [DecidableEq ι] [DecidableEq κ]

variable {phase : ApplyPhase}

theorem AckedAll.mono {expected generation : String}
    (h : AckedAll hist c phase expected generation) :
    AckedAll (hist ++ evs) c phase expected generation := fun i => mem_append_left _ (h i)

theorem PhaseReady.mono {expected generation : String}
    (h : PhaseReady k hist c expected generation phase) :
    PhaseReady k (hist ++ evs) c expected generation phase := by
  cases phase with
  | prepare => trivial
  | apply => exact AckedAll.mono h
  | commit =>
    exact ⟨h.1.mono, h.2.1.mono, fun i hi => mem_append_left _ (h.2.2 i hi)⟩
  | finalize => exact ⟨h.1.mono, h.2.1.mono, h.2.2.mono⟩

theorem StageInv.mono {stage : Stage ι} (h : StageInv k hist c stage) :
    StageInv k (hist ++ evs) c stage := by
  cases stage with
  | asking phase expected generation asked answered failed =>
    exact ⟨h.1, h.2.1.mono, fun hf i hi => mem_append_left _ (h.2.2 hf i hi)⟩
  | verifying rest expected generation =>
    exact ⟨h.1, h.2.1.mono, h.2.2.1.mono,
      fun i hi => (h.2.2.2 i hi).imp_right (mem_append_left _)⟩
  | done expected generation => exact ⟨h.1, fun phase => (h.2 phase).mono⟩
  | _ => trivial

theorem Barrier.snoc {e : ClusterEvent ι κ} (h : Barrier k hist c)
    (he : ∀ m, e = .asked c m → PhaseReady k hist c m.expected m.generation m.phase) :
    Barrier k (hist ++ [e]) c := by
  intro pre m post heq
  rcases eq_nil_or_concat post with rfl | ⟨post, last, rfl⟩
  · obtain ⟨rfl, hlast⟩ := append_inj' heq rfl
    exact he m (head_eq_of_cons_eq hlast)
  · have hsplit : hist ++ [e] = (pre ++ .asked c m :: post) ++ [last] := by
      rw [heq]
      simp
    exact h pre m post (append_inj' hsplit rfl).1

theorem Barrier.append (h : Barrier k hist c) (hno : ∀ m, .asked c m ∉ evs) :
    Barrier k (hist ++ evs) c := by
  induction evs generalizing hist with
  | nil => rwa [append_nil]
  | cons e evs ih =>
    rw [append_cons]
    refine ih (h.snoc fun m hm => ?_) fun m hm => hno m (mem_cons_of_mem _ hm)
    exact absurd (hm ▸ mem_cons_self) (hno m)

end Monotone

omit [DecidableEq κ] in
theorem applyStep_inv {stage : Stage ι} {m : ApplyMove ι} (hb : Barrier k hist c)
    (h : StageInv k hist c stage) :
    Barrier k (hist ++ (applyStep k c stage m).2) c ∧
      StageInv k (hist ++ (applyStep k c stage m).2) c (applyStep k c stage m).1 := by
  unfold applyStep
  split
  · -- The generation is derived from the one all nodes have.
    simp only []
    split_ifs
    all_goals rw [append_nil]
    · exact ⟨hb, rfl, trivial, nofun⟩
    · exact ⟨hb, trivial⟩
  · obtain ⟨hgen, hready, hacked⟩ := h
    split_ifs
    · rw [append_nil]
      exact ⟨hb, hgen, hready, hacked⟩
    · refine ⟨hb.snoc fun m hm => ?_, hgen, hready.mono,
        fun hf i hi => mem_append_left _ (hacked hf i hi)⟩
      cases hm
      exact hready
  · obtain ⟨hgen, hready, hacked⟩ := h
    rename_i i good
    split_ifs with hnew hgood
    · refine ⟨hb.snoc (nofun), hgen, hready.mono, fun hf j hj => ?_⟩
      rw [hgood, Bool.not_true, Bool.or_false] at hf
      rcases Finset.mem_insert.mp hj with rfl | hj
      · exact mem_append_right _ mem_cons_self
      · exact mem_append_left _ (hacked hf j hj)
    · rw [append_nil]
      refine ⟨hb, hgen, hready, fun hf => ?_⟩
      simp [hgood] at hf
    · rw [append_nil]
      exact ⟨hb, hgen, hready, hacked⟩
  · obtain ⟨hgen, hready, hacked⟩ := h
    rename_i phase expected generation asked answered failed checked
    split_ifs with hall hfail
    · rw [append_nil]
      cases phase <;> exact ⟨hb, trivial⟩
    · rw [append_nil]
      have hok : failed = false := by
        cases failed with
        | true => simp at hfail
        | false => rfl
      have hphase : AckedAll hist c phase expected generation := fun i =>
        hacked hok i (of_decide_eq_true (all_eq_true.mp hall i (k.complete i)))
      refine ⟨hb, ?_⟩
      cases phase with
      | prepare => exact ⟨hgen, hphase, nofun⟩
      | apply =>
        refine ⟨hgen, hready, hphase, fun i hi => .inl ?_⟩
        exact mem_filter.mpr ⟨k.complete i, hi⟩
      | commit => exact ⟨hgen, ⟨hready.1, hready.2.1, hphase⟩, nofun⟩
      | finalize =>
        refine ⟨hgen, fun phase => ?_⟩
        cases phase with
        | prepare => exact hready.1
        | apply => exact hready.2.1
        | commit => exact hready.2.2
        | finalize => exact hphase
    · rw [append_nil]
      exact ⟨hb, hgen, hready, hacked⟩
  · obtain ⟨hgen, hprep, happ, hver⟩ := h
    rw [append_nil]
    exact ⟨hb, hgen, ⟨hprep, happ, fun i hi => (hver i hi).resolve_left (by simp)⟩,
      nofun⟩
  · obtain ⟨hgen, hprep, happ, hver⟩ := h
    split_ifs
    · refine ⟨hb.snoc (nofun), hgen, hprep.mono, happ.mono, fun i hi => ?_⟩
      rcases hver i hi with hmem | hdone
      · rcases mem_cons.mp hmem with rfl | hmem
        · exact .inr (mem_append_right _ mem_cons_self)
        · exact .inl hmem
      · exact .inr (mem_append_left _ hdone)
    · rw [append_nil]
      exact ⟨hb, trivial⟩
  · rw [append_nil]
    exact ⟨hb, h⟩

variable {msg : ApplyMessage ι}

omit [DecidableEq κ] in
theorem asked_applyStep {c' : κ} {stage : Stage ι} {m : ApplyMove ι}
    (h : .asked c' msg ∈ (applyStep k c stage m).2) : c' = c := by
  revert h
  fun_cases applyStep k c stage m with
  | case4 =>
    intro h
    cases mem_singleton.mp h
    rfl
  | case5 => split_ifs <;> simp
  | _ => simp

theorem asked_acquireStep {c' : κ} {fate : LeaseFate} :
    .asked c' msg ∉ (acquireStep k s c fate).2 := by
  fun_cases acquireStep k s c fate with
  | case6 => split_ifs <;> simp
  | _ => simp

theorem acquireStep_stageInv {fate : LeaseFate} (h : StageInv k hist c (s.stage c)) :
    StageInv k (hist ++ (acquireStep k s c fate).2) c ((acquireStep k s c fate).1.stage c) := by
  fun_cases acquireStep k s c fate with
  | case7 => exact h.mono
  | _ =>
    rw [setStage_self]
    trivial

theorem clusterStep_applyInv (a : ClusterAction ι κ) (h : ApplyInv k hist s) :
    ApplyInv k (hist ++ (clusterStep k s a).2) (clusterStep k s a).1 := by
  intro c'
  obtain ⟨hb, hstage⟩ := h c'
  cases a with
  | advance c fate =>
    refine ⟨hb.append fun m => asked_acquireStep, ?_⟩
    simp only [clusterStep]
    by_cases hc : c' = c
    · subst hc
      exact acquireStep_stageInv hstage
    · rw [acquireStep_stage_of_ne hc]
      exact hstage.mono
  | move c m =>
    simp only [clusterStep]
    by_cases hc : c' = c
    · subst hc
      rw [setStage_self]
      exact applyStep_inv hb hstage
    · rw [setStage_of_ne hc]
      exact ⟨hb.append fun msg hmsg => hc (asked_applyStep hmsg), hstage.mono⟩
  | operate i op =>
    simp only [clusterStep]
    split_ifs
    all_goals
      rw [append_nil]
      exact ⟨hb, hstage⟩

end Agreement

/-- Any number of controllers on one cluster, in any interleaving and whatever
    becomes of their requests. A controller that reports success was acknowledged
    every phase of one generation by every node; no node is asked to apply before
    all have prepared, nor to commit before all have applied and verified; every
    acquisition ends; and one that failed leaves a lease only where the answer
    that granted it was lost or where giving it back did not succeed. -/
theorem coordinators_agree {ι κ : Type} [DecidableEq ι] [DecidableEq κ] (k : ClusterSetup ι κ)
    (s : ClusterState ι κ) (h0 : Initial k s) (as : List (ClusterAction ι κ)) (c : κ) :
    let hist := (coordination k).trace s as
    let s' := (coordination k).run s as
    (∀ expected generation, s'.stage c = .done expected generation →
      generation = generatedGeneration (k.plan c) expected ∧
        ∀ phase i, .acked c ⟨phase, i, expected, generation⟩ ∈ hist) ∧
    (∀ pre m post, hist = pre ++ .asked c m :: post →
      (m.phase = .apply → ∀ i, .acked c ⟨.prepare, i, m.expected, m.generation⟩ ∈ pre) ∧
      (m.phase = .commit → (∀ i, .acked c ⟨.apply, i, m.expected, m.generation⟩ ∈ pre) ∧
        ∀ i, (k.plan c).proofs i = true → .verified c i m.generation ∈ pre)) ∧
    (2 * k.nodes.length + 2 ≤ as.countP (advances c) → (s'.stage c).acquisition = 0) ∧
    ∀ i lab fence, s'.stage c = .refused → HeldBy (s'.agents i) lab (k.holder c) fence →
      .lostGrant c i ∈ hist ∨ .unreleased c i ∈ hist := by
  intro hist s'
  -- two invariants of the history: of the phases, and of the leases
  have happly : ApplyInv k hist s' := by
    refine (coordination k).history_induction (ApplyInv k)
      (fun hist s a h => clusterStep_applyInv a h) [] s as fun c => ⟨?_, ?_⟩
    · intro pre m post heq
      exact absurd heq (by simp)
    · rw [h0.stage]
      trivial
  have hleases : AcquisitionInv k hist s' := by
    refine (coordination k).history_induction (AcquisitionInv k)
      (fun hist s a h => clusterStep_acquisitionInv a h) [] s as ?_
    intro c i lab fence hheld
    exact absurd hheld (h0.fresh c i lab fence)
  refine ⟨fun expected generation hdone => ?_, fun pre m post heq => ?_, fun hmany => ?_,
    fun i lab fence hrefused hheld => ?_⟩
  · have hinv := (happly c).2
    rw [hdone] at hinv
    exact hinv
  · have hready := (happly c).1 pre m post heq
    refine ⟨fun hphase => ?_, fun hphase => ?_⟩
    · rw [hphase] at hready
      exact hready
    · rw [hphase] at hready
      exact hready.2
  · -- a whole acquisition is the longest there is
    have hbound := acquisition_bounded (k := k) (s := s) (c := c) as
    rw [h0.stage c] at hbound
    simp only [Stage.acquisition, length_nil] at hbound
    exact Nat.le_zero.mp (Nat.le_trans hbound (by omega))
  · have hacc := (hleases c i lab fence hheld).2
    rw [hrefused] at hacc
    exact hacc

/-! ### Two runs -/

/-- Two nodes, the second with state to verify, and two controllers that apply
    different topologies to one lab. -/
def rivals : ClusterSetup Bool Bool where
  nodes := [false, true]
  complete := by decide
  plan := fun c =>
    { lab := "cos461", onlySteps := false, generation := "", hash := if c then "g2" else "g1"
      digest := "d1", proofs := id }
  holder := fun c => if c then "controller-2" else "controller-1"
  distinct := by decide
  foreign := fun holder => holder ≠ "controller-1" ∧ holder ≠ "controller-2"
  unused := by decide
  recovery := by decide

def rivalsStart : ClusterState Bool Bool :=
  { agents := fun _ => boot none 0 0 true, stage := fun _ => .acquiring [false, true] [] }

theorem rivalsStart_initial : Initial rivals rivalsStart where
  stage := fun _ => rfl
  fresh := by
    rintro _ _ lab fence ⟨lease, hlease, -⟩
    cases hlease

/-- The answer to a request gets back, or it does not. -/
def leaseFate (answered : Bool) : LeaseFate :=
  { delivered := true, token := some "t1", saved := true, answered := answered }

/-- Ask both nodes for a phase. The answers come in the other order. -/
def phaseMoves : List (ClusterAction Bool Bool) :=
  [.move false (.ask false), .move false (.ask true), .move false (.answer true true),
   .move false (.answer false true), .move false (.proceed true)]

/-- The second controller asks for its leases while the first takes them. -/
def contendedApply : List (ClusterAction Bool Bool) :=
  [.advance false (leaseFate true), .advance true (leaseFate true),
   .advance false (leaseFate true), .advance true (leaseFate true),
   .advance false (leaseFate true), .move false (.start "g0" true)] ++
    phaseMoves ++ phaseMoves ++ [.move false (.verify true), .move false (.proceed true)] ++
    phaseMoves ++ phaseMoves

/-- The first controller succeeds, and both nodes acknowledged every phase to it. The
    second was refused and has nothing on any node. -/
theorem contended_apply_agrees :
    (((coordination rivals).run rivalsStart contendedApply).stage false = .done "g0" "g1" ∧
      ∀ phase i, .acked false ⟨phase, i, "g0", "g1"⟩ ∈
        (coordination rivals).trace rivalsStart contendedApply) ∧
    ((coordination rivals).run rivalsStart contendedApply).stage true = .refused ∧
      ∀ i lab fence, ¬ HeldBy (((coordination rivals).run rivalsStart contendedApply).agents i)
        lab "controller-2" fence := by
  have hdone : ((coordination rivals).run rivalsStart contendedApply).stage false =
      .done "g0" "g1" := by
    decide +kernel
  have hrefused : ((coordination rivals).run rivalsStart contendedApply).stage true =
      .refused := by
    decide +kernel
  have hclean : ∀ i, .lostGrant true i ∉ (coordination rivals).trace rivalsStart contendedApply ∧
      .unreleased true i ∉ (coordination rivals).trace rivalsStart contendedApply := by
    decide +kernel
  have hagree := coordinators_agree rivals rivalsStart rivalsStart_initial contendedApply
  exact ⟨⟨hdone, ((hagree false).1 "g0" "g1" hdone).2⟩, hrefused, fun i lab fence hheld =>
    ((hagree true).2.2.2 i lab fence hrefused hheld).elim (hclean i).1 (hclean i).2⟩

/-- The second node grants the lease and the answer is lost. The acquisition fails, gives
    back what it has of the first node, and the lease on the second stays. -/
theorem lost_grant_left_behind :
    let as := [.advance false (leaseFate true), .advance false (leaseFate false),
      .advance false (leaseFate true), .advance false (leaseFate true)]
    let s := (coordination rivals).run rivalsStart as
    Initial rivals rivalsStart ∧ s.stage false = .refused ∧
      HeldBy (s.agents true) "cos461" "controller-1" { token := "t1", generation := 1 } ∧
      ∀ i, .unreleased false i ∉ (coordination rivals).trace rivalsStart as := by
  refine ⟨rivalsStart_initial, by decide +kernel, ⟨_, rfl, rfl, rfl⟩, by decide +kernel⟩

end Client

end Twinet
