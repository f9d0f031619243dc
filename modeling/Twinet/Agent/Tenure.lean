import Twinet.Agent.Reservation

/-!
# Reservations and Their Leases

A reservation lives as long as the lease it was made under. The two are kept in
different tables, and five operations copy the deadline from one to the other or
drop both, so what ties them together is an invariant of all the actions in any
order.

`Tenant` says it for one reservation. Either the lease it was made under is held
and has the same deadline, or the reservation was read back when the agent started
and no lease has its generation. The second kind has no lease any more, for a
restart forgets the leases and the counter is past their generations.

## Main definitions

* `Tenant`, `Tenure`: What ties a reservation, and all of them, to the leases.
* `TakesOut`: The actions that take a reservation out although its lease is held.
* `LivesWithLease`: What is true of every reservation of a node.

## Theorems

* `Tenure.leaseStep`, `Tenure.reserve`: The actions keep the invariant.
* `started_restart`: A restarted agent has no leases and dated reservations.
* `stands_overlayStep`: What takes a reservation out while its lease is held.
* `reservation_lives_with_lease`: Reservations live with their leases in every run.
-/

namespace Twinet

namespace Agent

open Option AList Nat

/-- The reservations of a record have a deadline, and the counters are past their
    generations. -/
def Dated (c : CoordinationState) : Prop :=
  ∀ vni claim, c.overlayClaims.lookup vni = some claim → claim.live = false →
    claim.untilAt ≠ 0 ∧ claim.generation ≤ c.highWater claim.lab

/-- An agent that has no leases yet and may have reservations from before. -/
structure Started (n : Node) : Prop where
  unleased : ∀ lab, n.server.mutations.lookup lab = none
  dated : Dated n.server.toCoordinationState
  disk : ∀ c, n.disk = some c → Dated c

/-- A reservation is tied to the lease it was made under, or it is one of those at
    the start and no lease is its own. -/
structure Tenant (start : Table Nat OverlayClaim) (s : Server) (vni : Nat)
    (claim : OverlayClaim) : Prop where
  deadline : claim.untilAt ≠ 0
  passed : claim.generation ≤ s.highWater claim.lab
  tied : ∀ lease, s.mutations.lookup claim.lab = some lease →
    lease.fence.generation = claim.generation → lease.untilAt = claim.untilAt
  origin : start.lookup vni = some claim ∨ ∃ lease, s.mutations.lookup claim.lab = some lease ∧
    lease.fence.generation = claim.generation

def Tenants (start : Table Nat OverlayClaim) (s : Server) (claims : Table Nat OverlayClaim) :
    Prop :=
  ∀ vni claim, claims.lookup vni = some claim → claim.live = false → Tenant start s vni claim

/-- The leases have a deadline and a generation that was counted, and every
    reservation has its lease or comes from before. -/
structure Tenure (start : Table Nat OverlayClaim) (n : Node) : Prop where
  lease : ∀ lab lease, n.server.mutations.lookup lab = some lease →
    lease.untilAt ≠ 0 ∧ lease.fence.generation ≤ n.server.highWater lab
  tenants : Tenants start n.server n.server.overlayClaims
  disk : ∀ c, n.disk = some c → Dated c

/-- The lease of a lab is held and has the generation. -/
def Leased (s : Server) (lab : String) (generation : Nat) : Prop :=
  ∃ lease, s.mutations.lookup lab = some lease ∧ lease.fence.generation = generation

/-- An identifier is claimed for a lab, by a live claim or a reservation of the
    generation. -/
def Stands (claims : Table Nat OverlayClaim) (vni : Nat) (lab : String) (generation : Nat) : Prop :=
  ∃ claim, claims.lookup vni = some claim ∧ claim.lab = lab ∧
    (claim.live = true ∨ claim.generation = generation)

/-- The actions that take a reservation out although its lease is held: a rollback
    that does not have the identifier or is another lab's, a release of claims, a
    destroy of the lab, and the end of a collection of the identifier. -/
def TakesOut (vni : Nat) (claim : OverlayClaim) : OverlayAction → Prop
  | .restore lab fence oldVNIs _ =>
    if vni ∈ oldVNIs then lab ≠ claim.lab else reservedBy lab fence claim = true
  | .releaseClaims lab vnis _ => claim.lab = lab ∧ (vnis = [] ∨ vni ∈ vnis)
  | .destroy lab _ _ => claim.lab = lab
  | .endCollection vni' owner _ => vni' = vni ∧ (owner = "" ∨ claim.lab = owner)
  | _ => False

/-- What is true of every reservation of a node that started with some. -/
structure LivesWithLease (start : Table Nat OverlayClaim) (d : OverlayNode) : Prop where
  /-- It has a deadline, which is that of the lease of its generation. -/
  deadline : ∀ vni claim, d.claims.lookup vni = some claim → claim.live = false →
    claim.untilAt ≠ 0 ∧ ∀ lease, d.node.server.mutations.lookup claim.lab = some lease →
      lease.fence.generation = claim.generation → claim.untilAt = lease.untilAt
  /-- Expiry keeps it exactly while that lease has not expired. -/
  expiry : ∀ vni claim, d.claims.lookup vni = some claim → claim.live = false →
    ∀ lease, d.node.server.mutations.lookup claim.lab = some lease →
      lease.fence.generation = claim.generation →
        (d.expire.claims.lookup vni = some claim ↔ d.node.now < lease.untilAt)
  /-- If it was made since the start, its lease is held. -/
  held : ∀ vni claim, d.claims.lookup vni = some claim → claim.live = false →
    start.lookup vni = some claim ∨ ∃ lease,
      d.node.server.mutations.lookup claim.lab = some lease ∧
        lease.fence.generation = claim.generation
  /-- It is gone when its lease is released, saved or not. -/
  released : ∀ req ok, fenceError d.expire.node.server req.lab req.fence d.node.now = none →
    ∀ vni claim,
      (releaseMutationLease d.node req ok).1.server.overlayClaims.lookup vni = some claim →
        claim.live = false → claim.lab = req.lab → claim.generation ≠ req.fence.generation
  /-- While its lease is held, no other action than these takes it out. -/
  kept : ∀ vni claim, d.claims.lookup vni = some claim → claim.live = false → ∀ a,
    Leased (overlayStep d a).node.server claim.lab claim.generation → ¬ TakesOut vni claim a →
      Stands (overlayStep d a).claims vni claim.lab claim.generation

/-! ### Tables of claims -/

variable {lease : ClusterLease} {lab : String} {fence : Fence} {before : Table Nat OverlayClaim}

section Tenants

variable {start claims claims' : Table Nat OverlayClaim} {s s' : Server}

section

variable {vni : Nat} {claim : OverlayClaim} (h : Tenant start s vni claim)

include h

theorem Tenant.retie (hwater : s.highWater claim.lab ≤ s'.highWater claim.lab)
    (hlease : s'.mutations.lookup claim.lab = s.mutations.lookup claim.lab) :
    Tenant start s' vni claim :=
  ⟨h.deadline, h.passed.trans hwater, hlease ▸ h.tied, hlease ▸ h.origin⟩

/-- A reservation of the lab that is not the lease's has no lease. -/
theorem Tenant.early (hlook : s.mutations.lookup claim.lab = some lease)
    (hne : lease.fence.generation ≠ claim.generation) : start.lookup vni = some claim := by
  refine h.origin.resolve_right ?_
  rintro ⟨lease', hl, hg⟩
  rw [hlook, some.injEq] at hl
  exact hne (hl ▸ hg)

end

variable (h : Tenants start s claims)

include h

theorem Tenants.congr (hlease : s'.mutations = s.mutations)
    (hwater : s'.fenceHighWater = s.fenceHighWater) : Tenants start s' claims :=
  fun vni claim hlook hres => (h vni claim hlook hres).retie
    (by simp only [CoordinationState.highWater, hwater]; exact le_rfl) (by rw [hlease])

theorem Tenants.mono
    (hsub : ∀ vni claim, claims'.lookup vni = some claim → claims.lookup vni = some claim) :
    Tenants start s claims' :=
  fun vni claim hlook hres => h vni claim (hsub vni claim hlook) hres

theorem Tenants.drop (p : Nat → OverlayClaim → Bool) :
    Tenants start s
      (claims.filterMap fun vni claim => if p vni claim then none else some claim) :=
  h.mono fun _ _ hlook => (Table.lookup_drop.mp hlook).1

theorem Tenants.erase (vni : Nat) : Tenants start s (claims.erase vni) :=
  h.mono fun _ _ hlook => (Table.lookup_erase_eq_some.mp hlook).2

theorem Tenants.of_live
    (hlive : ∀ vni claim, claims'.lookup vni = some claim →
      claim.live = true ∨ claims.lookup vni = some claim) : Tenants start s claims' := by
  intro vni claim hlook hres
  rcases hlive vni claim hlook with hlive | hbefore
  · rw [hres] at hlive
    cases hlive
  · exact h vni claim hbefore hres

theorem Tenants.adopt (lab : String) (fence : Fence)
    (vnis : List Nat) : Tenants start s (vnis.foldl (adoptClaim lab fence) claims) := by
  refine h.of_live fun vni claim hlook => ?_
  rw [lookup_foldl_adoptClaim] at hlook
  split_ifs at hlook
  · cases hlook
    exact .inl rfl
  · exact .inr hlook

theorem Tenants.rollback (hbefore : Tenants start s before)
    (lab : String) (reverts : Nat → Bool) (adopted vnis : List Nat) :
    Tenants start s (rollbackLegacyAdoptions lab reverts adopted vnis before claims) := by
  intro vni claim hlook hres
  simp only [rollbackLegacyAdoptions, lookup_restoreOverlayClaimsLocked,
    lookup_foldl_keepClaim] at hlook
  split_ifs at hlook
  · exact hbefore vni claim hlook hres
  · cases hlook
    cases hres
  · exact h vni claim hlook hres

theorem Tenants.promote (lab : String) (fence : Fence)
    (vnis : List Nat) : Tenants start s (promoteClaims lab fence vnis claims).1 :=
  h.of_live fun vni claim hlook =>
    (promotes_promoteClaims lab fence vnis claims vni claim hlook).symm.imp_left And.left

theorem Tenants.reserve (hlook : s.mutations.lookup lab = some lease)
    (hfence : lease.fence = fence) (hdeadline : lease.untilAt ≠ 0)
    (hpassed : lease.fence.generation ≤ s.highWater lab) (vnis : List Nat) :
    Tenants start s (vnis.foldl (reserveClaim lab fence lease.untilAt) claims) := by
  have hfresh : ∀ vni, Tenant start s vni ⟨lab, fence.generation, lease.untilAt, false⟩ := by
    intro vni
    refine ⟨hdeadline, hfence ▸ hpassed, fun lease' hlook' _ => ?_, .inr ⟨lease, hlook, ?_⟩⟩
    · rw [some.inj (hlook'.symm.trans hlook)]
    · rw [hfence]
  intro vni claim hclaim hres
  rw [lookup_foldl_reserveClaim] at hclaim
  split_ifs at hclaim
  · revert hclaim
    fun_cases reservedClaim lab fence lease.untilAt (claims.lookup vni) with
    | case2 held hlive =>
      rintro ⟨⟩
      nomatch hlive.symm.trans hres
    | _ =>
      rintro ⟨⟩
      exact hfresh vni
  · exact h vni claim hclaim hres

end Tenants

open Tenants

/-! ### The steps of the lease operations -/

section Tenure

variable {start : Table Nat OverlayClaim} {n : Node}

theorem generation_ne_of_not_reserved {claim : OverlayClaim}
    (h : ¬ reservedBy lab fence claim = true) (hres : claim.live = false) (hlab : claim.lab = lab) :
    fence.generation ≠ claim.generation :=
  fun heq => h (by simp [reservedBy, hres, hlab, heq])

theorem lookup_expired_iff : n.expire.1.server.mutations.lookup lab = some lease ↔
    n.server.mutations.lookup lab = some lease ∧ n.now < lease.untilAt := by
  simp only [Node.expire, expireCoordination, Table.lookup_filterMap, bind_eq_some_iff]
  constructor
  · rintro ⟨lease', hlook, hkept⟩
    split_ifs at hkept with hlive
    cases hkept
    exact ⟨hlook, hlive⟩
  · rintro ⟨hlook, hlive⟩
    exact ⟨lease, hlook, if_pos hlive⟩

theorem Tenure.of_started (h : Started n) : Tenure n.server.overlayClaims n where
  lease := fun lab lease hlook => by
    rw [h.unleased lab] at hlook
    cases hlook
  tenants := fun vni claim hlook hres =>
    { deadline := (h.dated vni claim hlook hres).1
      passed := (h.dated vni claim hlook hres).2
      tied := fun lease hlease => by
        rw [h.unleased claim.lab] at hlease
        cases hlease
      origin := .inl hlook }
  disk := h.disk

section

variable (h : Tenure start n)

include h

theorem Tenure.dated : Dated n.server.toCoordinationState :=
  fun vni claim hlook hres =>
    ⟨(h.tenants vni claim hlook hres).deadline, (h.tenants vni claim hlook hres).passed⟩

theorem Tenure.save (ok : Bool) : Tenure start (saveCoordination n ok) := by
  cases ok with
  | false => exact h
  | true => exact ⟨h.lease, h.tenants, fun c hc => some.inj hc ▸ h.dated⟩

theorem Tenure.saveIf (changed ok : Bool) :
    Tenure start (if changed then saveCoordination n ok else n) := by
  cases changed with
  | false => exact h
  | true => exact h.save ok

theorem Tenure.expire : Tenure start n.expire.1 := by
  refine ⟨fun lab lease hlook => h.lease lab lease (lookup_expired_iff.mp hlook).1, ?_, h.disk⟩
  intro vni claim hlook hres
  obtain ⟨hbefore, hnot⟩ := Table.lookup_drop.mp hlook
  have htenant := h.tenants vni claim hbefore hres
  refine ⟨htenant.deadline, htenant.passed, fun lease hl hg => ?_, htenant.origin.imp_right ?_⟩
  · exact htenant.tied lease (lookup_expired_iff.mp hl).1 hg
  · -- the reservation has not expired, so its lease has not
    rintro ⟨lease, hl, hg⟩
    refine ⟨lease, lookup_expired_iff.mpr ⟨hl, ?_⟩, hg⟩
    rw [htenant.tied lease hl hg]
    simpa [claimExpired, hres, htenant.deadline] using hnot

/-- Only one lab changes: its lease, and the reservations under it. -/
theorem Tenure.relet {n' : Node} (hdisk : n'.disk = n.disk)
    (hwater : ∀ lab', n.server.highWater lab' ≤ n'.server.highWater lab')
    (hother : ∀ lab' ≠ lab, n'.server.mutations.lookup lab' = n.server.mutations.lookup lab')
    (hlease : ∀ lease, n'.server.mutations.lookup lab = some lease →
      lease.untilAt ≠ 0 ∧ lease.fence.generation ≤ n'.server.highWater lab)
    (hclaims : ∀ vni claim, n'.server.overlayClaims.lookup vni = some claim → claim.live = false →
      n.server.overlayClaims.lookup vni = some claim ∧
          (claim.lab = lab → Tenant start n'.server vni claim) ∨
        Tenant start n'.server vni claim) : Tenure start n' := by
  refine ⟨fun lab' lease hl => ?_, fun vni claim hclaim hres => ?_, hdisk ▸ h.disk⟩
  · by_cases hlab : lab' = lab
    · exact hlab ▸ hlease lease (hlab ▸ hl)
    · obtain ⟨hdeadline, hpassed⟩ := h.lease lab' lease (hother lab' hlab ▸ hl)
      exact ⟨hdeadline, hpassed.trans (hwater lab')⟩
  · rcases hclaims vni claim hclaim hres with ⟨hbefore, hown⟩ | hown
    · by_cases hlab : claim.lab = lab
      · exact hown hlab
      · exact (h.tenants vni claim hbefore hres).retie (hwater _) (hother _ hlab)
    · exact hown

theorem Tenure.count (hnone : n.server.mutations.lookup lab = none) (holder token : String)
    (ttl : Time) : Tenure start (dropLease (issueLease n lab holder token ttl).1 lab) := by
  have hwater := le_highWater_issueLease n lab holder token ttl
  refine h.relet rfl hwater
    (fun lab' hlab => (lookup_erase_ne hlab).trans (lookup_insert_ne hlab))
    (fun lease hl => nomatch hl.symm.trans (lookup_erase _ _)) fun vni claim hclaim hres => ?_
  refine .inl ⟨hclaim, fun hlab => (h.tenants vni claim hclaim hres).retie (hwater _) ?_⟩
  rw [hlab, hnone]
  exact lookup_erase _ _

theorem Tenure.issue (hnone : n.server.mutations.lookup lab = none) (holder token : String)
    {ttl : Time} (httl : 0 < ttl) : Tenure start (issueLease n lab holder token ttl).1 := by
  have hself : (issueLease n lab holder token ttl).1.server.mutations.lookup lab =
      some ⟨holder, ⟨token, n.server.highWater lab + 1⟩, n.now + ttl⟩ := lookup_insert _
  have hwater := le_highWater_issueLease n lab holder token ttl
  refine h.relet rfl hwater (fun lab' hlab => lookup_insert_ne hlab) (fun lease hl => ?_)
    fun vni claim hclaim hres => .inl ⟨hclaim, ?_⟩
  · rw [hself, some.injEq] at hl
    rw [← hl, highWater_issueLease, if_pos rfl]
    exact ⟨Nat.ne_of_gt (Nat.add_pos_right _ httl), le_rfl⟩
  · rintro rfl
    have htenant := h.tenants vni claim hclaim hres
    refine ⟨htenant.deadline, htenant.passed.trans (hwater _), fun lease hl hg => ?_,
      htenant.origin.imp_right ?_⟩
    · rw [hself, some.injEq] at hl
      rw [← hl] at hg
      exact absurd hg (ne_of_gt (lt_succ_of_le htenant.passed))
    · rintro ⟨lease, hl, -⟩
      nomatch hl.symm.trans hnone

theorem Tenure.extend (hlook : n.server.mutations.lookup lab = some lease)
    (hfence : lease.fence = fence) {deadline : Time} (hdeadline : deadline ≠ 0) :
    Tenure start (extendLease n lab fence lease deadline) := by
  have hself : (extendLease n lab fence lease deadline).server.mutations.lookup lab =
      some { lease with untilAt := deadline } := lookup_insert _
  refine h.relet rfl (fun _ => le_rfl) (fun lab' hlab => lookup_insert_ne hlab)
    (fun lease' hl => ?_) fun vni claim hclaim hres => ?_
  · rw [hself, some.injEq] at hl
    exact hl ▸ ⟨hdeadline, (h.lease lab lease hlook).2⟩
  · simp only [extendLease, Table.lookup_filterMap, bind_eq_some_iff] at hclaim
    obtain ⟨claim', hclaim', hkept⟩ := hclaim
    split_ifs at hkept with hreserved
    · -- one of the lease's own
      cases hkept
      have htenant := h.tenants vni claim' hclaim' hres
      simp only [reservedBy, Bool.and_eq_true, beq_iff_eq] at hreserved
      obtain ⟨⟨-, rfl⟩, hgeneration⟩ := hreserved
      refine .inr ⟨hdeadline, htenant.passed, fun lease' hl _ => ?_, .inr ⟨_, hself, ?_⟩⟩
      · rw [← some.inj (hself.symm.trans hl)]
      · rw [hgeneration, ← hfence]
    · cases hkept
      refine .inl ⟨hclaim', fun hlab => ?_⟩
      have htenant := h.tenants vni claim hclaim' hres
      have hne := hfence ▸ generation_ne_of_not_reserved hreserved hres hlab
      refine ⟨htenant.deadline, htenant.passed, fun lease' hl hg => ?_,
        .inl (htenant.early (hlab ▸ hlook) hne)⟩
      rw [hlab, hself, some.injEq] at hl
      rw [← hl] at hg
      exact absurd hg hne

theorem Tenure.forget (hlook : n.server.mutations.lookup lab = some lease)
    (hfence : lease.fence = fence) : Tenure start (forgetLease n lab fence) := by
  have hself : (forgetLease n lab fence).server.mutations.lookup lab = none :=
    lookup_erase _ _
  refine h.relet rfl (fun _ => le_rfl) (fun lab' hlab => lookup_erase_ne hlab)
    (fun lease' hl => nomatch hl.symm.trans hself) fun vni claim hclaim hres => ?_
  obtain ⟨hbefore, hreserved⟩ := Table.lookup_drop.mp hclaim
  refine .inl ⟨hbefore, ?_⟩
  rintro rfl
  have htenant := h.tenants vni claim hbefore hres
  have hne := hfence ▸ generation_ne_of_not_reserved hreserved hres rfl
  exact ⟨htenant.deadline, htenant.passed, fun lease' hl => (nomatch hl.symm.trans hself),
    .inl (htenant.early hlook hne)⟩

end

/-! ### The lease operations -/

theorem Tenure.tick (h : Tenure start n) (d : Time) :
    Tenure start { n with now := n.now + d } := ⟨h.lease, h.tenants, h.disk⟩

theorem Tenure.move {n' : Node} {granted : String → Option Fence} (h : Tenure start n)
    (hmove : LeaseMove n granted n') : Tenure start n' := by
  cases hmove with
  | expire => exact h.expire
  | save ok => exact h.save ok
  | tick d => exact h.tick d
  | issue holder token hnone httl => exact (h.issue hnone holder token httl).save true
  | miss holder token ttl hnone => exact h.count hnone holder token ttl
  | @extend lab fence lease deadline hpass hlook hdeadline =>
    obtain ⟨lease', hlook', -, hown⟩ := exists_lease_of_fenceError hpass
    obtain rfl := some.inj (hlook.symm.trans hlook')
    exact h.extend hlook hown hdeadline
  | forget hpass =>
    obtain ⟨lease, hlook, -, hown⟩ := exists_lease_of_fenceError hpass
    exact h.forget hlook hown

/-- A lease operation short of a restart keeps the tenure. -/
theorem Tenure.leaseStep (h : Tenure start n) (op : LeaseOp) (hop : op.restarts = false) :
    Tenure start (leaseStep n op).1 :=
  let ⟨_, hmoves⟩ := leaseMoves_leaseStep n op hop
  hmoves.keeps (fun hmove hn => hn.move hmove) h

theorem started_merge {disk : CoordinationState} (hdated : Dated disk)
    (hdisk : ∀ c, n.disk = some c → Dated c) :
    Started { n with server := mergeCoordination initCoordination disk n.now } := by
  refine ⟨fun _ => rfl, fun vni claim hlook hres => ?_, hdisk⟩
  have hread : disk.overlayClaims.lookup vni = some claim := by
    rw [← hlook]
    simp only [mergeCoordination, Table.lookup_mergeWith]
    cases disk.overlayClaims.lookup vni with
    | none | some _ => rfl
  obtain ⟨hdeadline, hpassed⟩ := hdated vni claim hread hres
  exact ⟨hdeadline, hpassed.trans (le_of_eq (highWater_mergeCoordination ..).symm)⟩

/-- A restarted agent has only dated reservations. -/
theorem started_restart (hdisk : ∀ c, n.disk = some c → Dated c) (ok : Bool) :
    Started (restart n ok) := by
  rcases n with ⟨server, disk, now, recoveryLeaseTTL⟩
  cases disk with
  | none =>
    refine ⟨fun _ => rfl, fun vni claim hlook => ?_, fun c hc => ?_⟩
    · cases hlook
    · cases hc
  | some disk =>
    have hmerged := (Tenure.of_started (started_merge (hdisk disk rfl) hdisk)).expire
    have hsaved := hmerged.saveIf (migrates disk now) ok
    refine ⟨fun lab => ?_, hsaved.dated, hsaved.disk⟩
    simp only [restart, loadCoordination]
    split_ifs
    · rw [server_saveCoordination]
      rfl
    · rfl

theorem started_boot (now recoveryLeaseTTL : Time) (ok : Bool) :
    Started (boot none now recoveryLeaseTTL ok) :=
  started_restart (fun _ hc => absurd hc (some_ne_none _).symm) ok

end Tenure

/-! ### The other actions -/

section Overlay

variable {start : Table Nat OverlayClaim} {d : OverlayNode}

theorem OverlayNode.server_saveIf (d : OverlayNode) (changed ok : Bool) :
    (d.saveIf changed ok).node.server = d.node.server := by
  cases changed with
  | false => rfl
  | true => exact server_saveCoordination d.node ok

section

variable (h : Tenure start d.node)

include h

theorem Tenure.withClaims {claims : Table Nat OverlayClaim}
    (hclaims : Tenants start d.node.server claims) : Tenure start (d.withClaims claims).node :=
  ⟨h.lease, hclaims.congr rfl rfl, h.disk⟩

theorem Tenure.saveNode (changed ok : Bool) : Tenure start (d.saveIf changed ok).node := by
  cases changed with
  | false => exact h
  | true => exact h.save ok

theorem Tenure.adoptOverlays (hbefore : Tenants start d.node.server before) (lab : String)
    (fence : Fence) (vnis legacy : List Nat) (o : ReserveOutcomes) :
    Tenure start (adoptOverlays d before lab fence vnis legacy o).1.node := by
  rw [Agent.adoptOverlays, adoptUpTo_eq]
  have hadopted : Tenants start d.node.server _ :=
    adopt h.tenants lab fence (legacy.takeWhile o.adopts)
  cases legacy.find? fun vni => !o.adopts vni with
  | some failed =>
    exact (h.withClaims (hadopted.rollback hbefore lab o.reverts _ vnis)).saveNode true _
  | none =>
    simp only
    split_ifs
    · exact h.withClaims hadopted
    · exact (h.withClaims hadopted).saveNode _ true

/-- A reservation keeps the tenure, whatever fails in it. -/
theorem Tenure.reserve (req : OverlayReservationRequest)
    (o : ReserveOutcomes) : Tenure start (reserveOverlays d req o).1.node := by
  have hexpired : Tenure start d.expire.node := h.expire
  fun_cases reserveOverlays d req o with
  | case1 | case2 | case3 => exact h
  | case4 => exact hexpired.saveNode _ _
  | case5 => exact hexpired
  | case6 vnis _ _ _ _ hfence =>
    obtain ⟨lease, hlook, -, hown⟩ := exists_lease_of_fenceError hfence
    obtain ⟨hdeadline, hpassed⟩ := hexpired.lease req.lab lease hlook
    have hwritten := Tenants.reserve hexpired.tenants hlook hown hdeadline hpassed vnis
    unfold writeReservation
    simp only [hlook, map_some, getD_some]
    split_ifs
    · refine hexpired.withClaims fun vni claim hclaim hres => ?_
      rw [lookup_restoreOverlayClaimsLocked] at hclaim
      split_ifs at hclaim
      · exact hexpired.tenants vni claim hclaim hres
      · exact hwritten vni claim hclaim hres
    · refine ((hexpired.withClaims hwritten).saveNode _ true).adoptOverlays ?_ ..
      rw [OverlayNode.server_saveIf]
      exact hexpired.tenants.congr rfl rfl

theorem Tenure.promote (lab : String) (fence : Fence) (vnis : List Nat)
    (ok : Bool) : Tenure start (promoteOverlayReservations d lab fence vnis ok).1.node := by
  have hpromoted := Tenants.promote h.tenants lab fence vnis
  rw [show d.node.server.overlayClaims = d.claims from rfl] at hpromoted
  fun_cases promoteOverlayReservations with
  | case1 => exact h
  | case2 _ claims err heq =>
    rw [heq] at hpromoted
    exact h.withClaims hpromoted
  | case3 _ _ claims heq =>
    rw [heq] at hpromoted
    exact (h.withClaims hpromoted).saveNode _ ok

theorem Tenure.restore (lab : String) (fence : Fence) (oldVNIs : List Nat) (ok : Bool) :
    Tenure start (restoreOverlayClaims d lab fence oldVNIs ok).node :=
  (h.withClaims (adopt (drop h.tenants _) lab fence oldVNIs)).saveNode true ok

theorem Tenure.destroy (lab : String) (fence : Fence) (ok : Bool) :
    Tenure start (finishDestroyedLab d lab fence ok).1.node := by
  fun_cases finishDestroyedLab with
  | case2 =>
    have hdropped := drop h.tenants fun _ claim => claim.lab = lab
    simp only [decide_eq_true_eq] at hdropped
    refine Tenure.save ?_ true
    exact ⟨h.lease, hdropped.congr rfl rfl, h.disk⟩
  | _ => exact h

theorem Tenure.endCollection (vni : Nat) (owner : String) (ok : Bool) :
    Tenure start (endOverlayCollection d vni owner ok).node := by
  fun_cases endOverlayCollection with
  | case3 => exact (Tenure.withClaims h (erase h.tenants vni)).saveNode true ok
  | _ => exact h

theorem Tenure.overlayStep (a : OverlayAction) : Tenure start (overlayStep d a).node := by
  cases a with
  | lease op running => exact h.leaseStep op running
  | reserve req o => exact h.reserve req o
  | promote lab fence vnis ok => exact h.promote lab fence vnis ok
  | restore lab fence oldVNIs ok => exact h.restore lab fence oldVNIs ok
  | releaseClaims lab vnis ok => exact (h.withClaims (drop h.tenants _)).saveNode _ ok
  | destroy lab fence ok => exact h.destroy lab fence ok
  | beginCollection vni owner elsewhere =>
    simp only [Agent.overlayStep, beginOverlayCollection]
    split_ifs
    · exact h
    · exact h
  | endCollection vni owner ok => exact h.endCollection vni owner ok
  | releaseStale guarded eligible ok =>
    exact (h.withClaims (drop h.tenants _)).saveNode _ ok

end

/-! ### What takes a reservation out -/

section Stands

variable {lab : String} {vni g : Nat}

theorem stands_expire {n : Node} (h : Tenure start n) (hlease : Leased n.expire.1.server lab g)
    (hstands : Stands n.server.overlayClaims vni lab g) :
    Stands n.expire.1.server.overlayClaims vni lab g := by
  obtain ⟨lease, hlook, hg⟩ := hlease
  obtain ⟨claim, hclaim, hlab, hkind⟩ := hstands
  obtain ⟨hlook', hnow⟩ := lookup_expired_iff.mp hlook
  refine ⟨claim, Table.lookup_drop.mpr ⟨hclaim, ?_⟩, hlab, hkind⟩
  -- a reservation has the deadline of the lease, which has not passed
  cases hlive : claim.live with
  | true => simp [claimExpired, hlive]
  | false =>
    have hgen : claim.generation = g := by simpa [hlive] using hkind
    have htied := (h.tenants vni claim hclaim hlive).tied lease (hlab ▸ hlook') (hg.trans hgen.symm)
    simp [claimExpired, ← htied, hnow]

/-- One lease move leaves a reservation whose lease is held after it. -/
theorem stands_move {n n' : Node} {granted : String → Option Fence} (h : Tenure start n)
    (hwater : g ≤ n.server.highWater lab)
    (hstands : Leased n.server lab g → Stands n.server.overlayClaims vni lab g)
    (hmove : LeaseMove n granted n') :
    g ≤ n'.server.highWater lab ∧
      (Leased n'.server lab g → Stands n'.server.overlayClaims vni lab g) := by
  cases hmove with
  | expire =>
    refine ⟨hwater, fun hlease => stands_expire h hlease (hstands ?_)⟩
    obtain ⟨lease, hlook, hg⟩ := hlease
    exact ⟨lease, (lookup_expired_iff.mp hlook).1, hg⟩
  | save ok =>
    rw [server_saveCoordination]
    exact ⟨hwater, hstands⟩
  | tick d => exact ⟨hwater, hstands⟩
  | @issue lab' holder token ttl hnone httl =>
    rw [server_saveCoordination]
    refine ⟨hwater.trans (le_highWater_issueLease n lab' holder token ttl lab), ?_⟩
    rintro ⟨lease, hlook, hg⟩
    by_cases hlab : lab = lab'
    · -- the new lease has a generation of its own
      subst hlab
      obtain rfl := some.inj ((lookup_insert _).symm.trans hlook)
      exact absurd hg (Nat.ne_of_gt (lt_succ_of_le hwater))
    · exact hstands ⟨lease, (lookup_insert_ne hlab).symm.trans hlook, hg⟩
  | @miss lab' holder token ttl hnone =>
    refine ⟨hwater.trans (le_highWater_issueLease n lab' holder token ttl lab), ?_⟩
    rintro ⟨lease, hlook, hg⟩
    obtain ⟨hlab, hissued⟩ := Table.lookup_erase_eq_some.mp hlook
    exact hstands ⟨lease, (lookup_insert_ne hlab).symm.trans hissued, hg⟩
  | @extend lab' fence held deadline hpass hheld hdeadline =>
    refine ⟨hwater, ?_⟩
    rintro ⟨lease, hlook, hg⟩
    have hbefore : Leased n.server lab g := by
      by_cases hlab : lab = lab'
      · subst hlab
        obtain rfl := some.inj ((lookup_insert _).symm.trans hlook)
        exact ⟨held, hheld, hg⟩
      · exact ⟨lease, (lookup_insert_ne hlab).symm.trans hlook, hg⟩
    obtain ⟨claim, hclaim, hkind⟩ := hstands hbefore
    by_cases hreserved : reservedBy lab' fence claim = true
    · exact ⟨{ claim with untilAt := deadline },
        by simp [extendLease, Table.lookup_filterMap, hclaim, hreserved], hkind⟩
    · exact ⟨claim, by simp [extendLease, Table.lookup_filterMap, hclaim, hreserved], hkind⟩
  | @forget lab' fence hpass =>
    refine ⟨hwater, ?_⟩
    rintro ⟨lease, hlook, hg⟩
    obtain ⟨hlab, hbefore⟩ := Table.lookup_erase_eq_some.mp hlook
    obtain ⟨claim, hclaim, hclaimed, hkind⟩ := hstands ⟨lease, hbefore, hg⟩
    refine ⟨claim, Table.lookup_drop.mpr ⟨hclaim, ?_⟩, hclaimed, hkind⟩
    simp [reservedBy, hclaimed, hlab]

theorem stands_leaseStep {n : Node} (h : Tenure start n)
    (hwater : g ≤ n.server.highWater lab) (hstands : Stands n.server.overlayClaims vni lab g)
    (op : LeaseOp) (hop : op.restarts = false)
    (hlease : Leased (leaseStep n op).1.server lab g) :
    Stands (leaseStep n op).1.server.overlayClaims vni lab g := by
  obtain ⟨_, hmoves⟩ := leaseMoves_leaseStep n op hop
  have hkept := hmoves.keeps (P := fun n => Tenure start n ∧ g ≤ n.server.highWater lab ∧
    (Leased n.server lab g → Stands n.server.overlayClaims vni lab g))
    (fun hmove hn => ⟨hn.1.move hmove, stands_move hn.1 hn.2.1 hn.2.2 hmove⟩)
    ⟨h, hwater, fun _ => hstands⟩
  exact hkept.2.2 hlease

/-- What a reservation that is not refused finds at an identifier it names. -/
theorem claim_of_unrefused {vnis : List Nat} {owners : Table Nat String} {proves : Nat → Bool}
    {claim : OverlayClaim}
    (h : vnis.findSome? (reservationRefusal d owners proves lab fence) = none) (hvni : vni ∈ vnis)
    (hlook : d.claims.lookup vni = some claim) :
    claim.lab = lab ∧ (claim.live = true ∨ claim.generation = fence.generation) := by
  have hlab := (contained_of_unrefused h).inside vni hvni claim hlook
  refine ⟨hlab, ?_⟩
  have hnone := List.findSome?_eq_none_iff.mp h vni hvni
  revert hnone
  fun_cases reservationRefusal with
  | case3 =>
    intro hnone
    by_contra hkind
    rw [not_or, Bool.not_eq_true] at hkind
    simp [claimRefusal, hlook, hlab, hkind] at hnone
  | _ => simp

theorem stands_adoptOverlays {lab' : String} {vnis legacy : List Nat} (o : ReserveOutcomes)
    (hlab : vni ∈ vnis → lab' = lab) (hlegacy : ∀ vni ∈ legacy, vni ∈ vnis)
    (hbefore : Stands before vni lab g) (hstands : Stands d.claims vni lab g) :
    Stands (adoptOverlays d before lab' fence vnis legacy o).1.claims vni lab g := by
  have htaken : ∀ vni, vni ∈ legacy.takeWhile o.adopts → vni ∈ vnis := fun vni hvni =>
    hlegacy vni ((List.takeWhile_sublist _).subset hvni)
  have hadopted : Stands ((legacy.takeWhile o.adopts).foldl (adoptClaim lab' fence) d.claims)
      vni lab g := by
    by_cases hvni : vni ∈ legacy.takeWhile o.adopts
    · exact ⟨_, by rw [lookup_foldl_adoptClaim, if_pos hvni], hlab (htaken vni hvni), .inl rfl⟩
    · rwa [Stands, lookup_foldl_adoptClaim, if_neg hvni]
  rw [Agent.adoptOverlays, adoptUpTo_eq]
  cases legacy.find? fun vni => !o.adopts vni with
  | some failed =>
    simp only [OverlayNode.claims_saveIf, OverlayNode.claims_withClaims, List.nil_append]
    simp only [Stands, rollbackLegacyAdoptions, lookup_restoreOverlayClaimsLocked,
      lookup_foldl_keepClaim]
    split_ifs with hback hkept
    · exact hbefore
    · have hvni := htaken vni (List.mem_filter.mp (List.mem_reverse.mp hkept)).1
      exact ⟨_, rfl, hlab hvni, .inl rfl⟩
    · exact hadopted
  | none =>
    simp only
    split_ifs
    · exact hadopted
    · rwa [OverlayNode.claims_saveIf]

theorem stands_writeReservation {owners : Table Nat String} {proves : Nat → Bool}
    {lab' : String} {vnis : List Nat} (changed : Bool) (o : ReserveOutcomes)
    (hclear : vnis.findSome? (reservationRefusal d owners proves lab' fence) = none)
    (hstands : Stands d.claims vni lab g) :
    Stands (writeReservation d changed owners lab' fence vnis o).1.claims vni lab g := by
  obtain ⟨claim, hlook, hlab, hkind⟩ := id hstands
  have hwritten : ∀ deadline,
      Stands (vnis.foldl (reserveClaim lab' fence deadline) d.claims) vni lab g := by
    intro deadline
    by_cases hvni : vni ∈ vnis
    · obtain ⟨hown, hgen⟩ := claim_of_unrefused hclear hvni hlook
      refine ⟨_, by rw [lookup_foldl_reserveClaim, if_pos hvni, hlook], ?_⟩
      unfold reservedClaim
      simp only
      split_ifs with hlive
      · exact ⟨hlab, .inl hlive⟩
      · refine ⟨hown.symm.trans hlab, .inr ?_⟩
        rw [← hgen.resolve_left hlive, hkind.resolve_left hlive]
    · rwa [Stands, lookup_foldl_reserveClaim, if_neg hvni]
  -- an identifier that is claimed by another lab was refused
  have hnamed : vni ∈ vnis → lab' = lab := fun hvni =>
    (claim_of_unrefused hclear hvni hlook).1.symm.trans hlab
  unfold writeReservation
  simp only
  split_ifs
  · -- the write failed and the claims are put back
    simp only [OverlayNode.claims_withClaims, Stands, lookup_restoreOverlayClaimsLocked]
    split_ifs
    · exact hstands
    · exact hwritten _
  · refine stands_adoptOverlays o hnamed (fun v hv => (List.mem_filter.mp hv).1) hstands ?_
    rw [OverlayNode.claims_saveIf]
    exact hwritten _

theorem mutations_writeReservation (changed : Bool) (owners : Table Nat String) (lab' : String)
    (vnis : List Nat) (o : ReserveOutcomes) :
    (writeReservation d changed owners lab' fence vnis o).1.node.server.mutations =
      d.node.server.mutations := by
  unfold writeReservation
  simp only
  split_ifs
  · rfl
  · rw [Agent.adoptOverlays, adoptUpTo_eq]
    cases (legacyVNIs owners vnis).find? fun vni => !o.adopts vni with
    | some failed =>
      simp only [OverlayNode.server_saveIf, OverlayNode.withClaims]
    | none =>
      simp only
      split_ifs <;> simp only [OverlayNode.server_saveIf, OverlayNode.withClaims]

theorem stands_reserveOverlays (h : Tenure start d.node) (req : OverlayReservationRequest)
    (o : ReserveOutcomes) (hlease : Leased (reserveOverlays d req o).1.node.server lab g)
    (hstands : Stands d.claims vni lab g) :
    Stands (reserveOverlays d req o).1.claims vni lab g := by
  revert hlease
  fun_cases reserveOverlays d req o with
  | case1 | case2 | case3 => exact fun _ => hstands
  | case4 =>
    rw [OverlayNode.server_saveIf, OverlayNode.claims_saveIf]
    exact fun hlease => stands_expire h hlease hstands
  | case5 => exact fun hlease => stands_expire h hlease hstands
  | case6 vnis _ _ _ _ _ hclear =>
    intro hlease
    rw [Leased, mutations_writeReservation] at hlease
    exact stands_writeReservation _ o hclear (stands_expire h hlease hstands)

theorem stands_promoteClaims (lab' : String) (fence : Fence) (vnis : List Nat)
    {claims : Table Nat OverlayClaim} (hstands : Stands claims vni lab g) :
    Stands (promoteClaims lab' fence vnis claims).1 vni lab g := by
  fun_induction promoteClaims lab' fence vnis claims with
  | case1 | case2 | case3 => exact hstands
  | case4 _ _ _ _ _ _ _ ih => exact ih hstands
  | case5 vni' rest claims claim hlook _ _ ih =>
    refine ih ?_
    by_cases hvni : vni = vni'
    · subst hvni
      obtain ⟨claim', hlook', hlab, -⟩ := hstands
      obtain rfl := some.inj (hlook.symm.trans hlook')
      exact ⟨_, lookup_insert _, hlab, .inl rfl⟩
    · rwa [Stands, lookup_insert_ne hvni]

/-- A reservation stands as long as its lease is held, unless an action takes it out. -/
theorem stands_overlayStep (h : Tenure start d.node) {claim : OverlayClaim}
    (hlook : d.claims.lookup vni = some claim) (hres : claim.live = false) (a : OverlayAction)
    (hlease : Leased (overlayStep d a).node.server claim.lab claim.generation)
    (hkeeps : ¬ TakesOut vni claim a) :
    Stands (overlayStep d a).claims vni claim.lab claim.generation := by
  have hstands : Stands d.claims vni claim.lab claim.generation := ⟨claim, hlook, rfl, .inr rfl⟩
  have hdropped : ∀ {p : Nat → OverlayClaim → Prop} [∀ vni claim, Decidable (p vni claim)],
      ¬ p vni claim → Stands (d.claims.filterMap fun vni claim =>
        if p vni claim then none else some claim) vni claim.lab claim.generation :=
    fun hp => ⟨claim, Table.lookup_drop.mpr ⟨hlook, hp⟩, rfl, .inr rfl⟩
  cases a with
  | lease op running =>
    exact stands_leaseStep h (h.tenants vni claim hlook hres).passed hstands op running hlease
  | reserve req o => exact stands_reserveOverlays h req o hlease hstands
  | promote lab fence vnis ok =>
    have hpromoted := stands_promoteClaims lab fence vnis hstands
    simp only [overlayStep]
    fun_cases promoteOverlayReservations with
    | case1 => exact hstands
    | case2 _ claims err heq =>
      rw [heq] at hpromoted
      exact hpromoted
    | case3 _ _ claims heq =>
      rw [heq] at hpromoted
      rwa [OverlayNode.claims_saveIf]
  | restore lab fence oldVNIs ok =>
    simp only [overlayStep, restoreOverlayClaims, OverlayNode.claims_saveIf,
      OverlayNode.claims_withClaims]
    simp only [TakesOut] at hkeeps
    -- an identifier of the previous topology gets a live claim
    by_cases hvni : vni ∈ oldVNIs
    · rw [if_pos hvni, not_not] at hkeeps
      exact ⟨_, by rw [lookup_foldl_adoptClaim, if_pos hvni], hkeeps, .inl rfl⟩
    · rw [if_neg hvni] at hkeeps
      rw [Stands, lookup_foldl_adoptClaim, if_neg hvni]
      exact hdropped (by simp [hkeeps])
  | releaseClaims lab vnis ok =>
    simp only [overlayStep, releaseOverlayClaims, OverlayNode.claims_saveIf,
      OverlayNode.claims_withClaims]
    refine hdropped ?_
    simp only [TakesOut] at hkeeps
    simpa using hkeeps
  | destroy lab fence ok =>
    simp only [overlayStep]
    fun_cases finishDestroyedLab with
    | case2 =>
      rw [OverlayNode.claims, server_saveCoordination]
      exact hdropped hkeeps
    | _ => exact hstands
  | beginCollection vni' owner elsewhere =>
    simp only [overlayStep, beginOverlayCollection]
    split_ifs <;> exact hstands
  | endCollection vni' owner ok =>
    simp only [overlayStep]
    fun_cases endOverlayCollection with
    | case3 _ claim' hfound howner =>
      refine ⟨claim, ?_, rfl, .inr rfl⟩
      rw [OverlayNode.claims_saveIf, OverlayNode.claims_withClaims]
      -- the claim that goes is at another identifier
      refine (lookup_erase_ne ?_).trans hlook
      rintro rfl
      obtain rfl := some.inj (hlook.symm.trans hfound)
      rw [not_and_or, not_not, not_not] at howner
      exact hkeeps ⟨rfl, howner⟩
    | _ => exact hstands
  | releaseStale guarded eligible ok =>
    simp only [overlayStep, gcReleaseStaleLiveClaims, OverlayNode.claims_saveIf,
      OverlayNode.claims_withClaims]
    exact hdropped (by simp [hres])

end Stands

/-! ### What the invariant means -/

theorem Tenure.expiry_iff (h : Tenure start d.node) {vni : Nat} {claim : OverlayClaim}
    (hlook : d.claims.lookup vni = some claim) (hres : claim.live = false)
    (hl : d.node.server.mutations.lookup claim.lab = some lease)
    (hg : lease.fence.generation = claim.generation) :
    d.expire.claims.lookup vni = some claim ↔ d.node.now < lease.untilAt := by
  have htenant := h.tenants vni claim hlook hres
  have hdeadline := htenant.deadline
  rw [htenant.tied lease hl hg, d.lookup_expire, hlook, bind_some]
  by_cases hnow : d.node.now < claim.untilAt
  · simp [claimExpired, hnow]
  · simp [claimExpired, hres, hdeadline, hnow]

theorem released_of_accepted (req : LeaseReleaseRequest) (ok : Bool)
    (hfence : fenceError d.expire.node.server req.lab req.fence d.node.now = none) (vni : Nat)
    (claim : OverlayClaim)
    (hlook : (releaseMutationLease d.node req ok).1.server.overlayClaims.lookup vni = some claim)
    (hres : claim.live = false) (hlab : claim.lab = req.lab) :
    claim.generation ≠ req.fence.generation := by
  have hclaims : (releaseMutationLease d.node req ok).1.server.overlayClaims =
      (forgetLease d.node.expire.1 req.lab req.fence).server.overlayClaims := by
    unfold releaseMutationLease
    have hsame : fenceError d.node.expire.1.server req.lab req.fence d.node.expire.1.now = none :=
      hfence
    simp only [hsame]
    split
    · rfl
    · split
      · rw [server_saveCoordination]
      · rfl
  rw [hclaims] at hlook
  exact (generation_ne_of_not_reserved (Table.lookup_drop.mp hlook).2 hres hlab).symm

theorem Tenure.livesWithLease (h : Tenure start d.node) : LivesWithLease start d where
  deadline := fun vni claim hlook hres =>
    ⟨(h.tenants vni claim hlook hres).deadline, fun lease hl hg =>
      ((h.tenants vni claim hlook hres).tied lease hl hg).symm⟩
  expiry := fun _ _ hlook hres _ hl hg => h.expiry_iff hlook hres hl hg
  held := fun vni claim hlook hres => (h.tenants vni claim hlook hres).origin
  released := fun req ok hfence => released_of_accepted req ok hfence
  kept := fun _ _ hlook hres a hlease hkeeps => stands_overlayStep h hlook hres a hlease hkeeps

end Overlay

/-- In every run of the actions, in any order and for any labs, from an agent that
    started with dated reservations: every reservation has a deadline, which is that
    of the current lease if the lease has its generation, it is not lost to expiry
    before its lease and not kept after it, it is gone once its lease is, and until
    then only the actions that `TakesOut` lists take it out. A restart at the end
    gives such a start again. -/
theorem reservation_lives_with_lease (d : OverlayNode) (h : Started d.node)
    (acts : List OverlayAction) :
    LivesWithLease d.claims (overlays.run d acts) ∧
      ∀ ok, Started (restart (overlays.run d acts).node ok) := by
  have htenure : Tenure d.claims (overlays.run d acts).node :=
    overlays.invariant_run (fun d' => Tenure d.claims d'.node) (fun _ a ih => ih.overlayStep a)
      d acts (Tenure.of_started h)
  exact ⟨htenure.livesWithLease, fun ok => started_restart htenure.disk ok⟩

/-- A lease, a reservation under it and a renewal, on a node that starts empty. -/
def renewedReservation : List OverlayAction :=
  [.lease (.acquire ⟨"a", "alice", 60⟩ (some "t") true) (.refl false),
   .reserve ⟨"a", ⟨"t", 1⟩, [7]⟩ clearOutcomes,
   .lease (.tick second) (.refl false),
   .lease (.renew ⟨"a", ⟨"t", 1⟩, 60⟩ true) (.refl false)]

/-- The renewed reservation lives with its lease. -/
theorem renewed_reservation_lives :
    Started upgradedNode.node ∧
      LivesWithLease upgradedNode.claims (overlays.run upgradedNode renewedReservation) := by
  have h : Started upgradedNode.node := started_boot 0 100 true
  exact ⟨h, (reservation_lives_with_lease upgradedNode h renewedReservation).1⟩

end Agent

end Twinet
