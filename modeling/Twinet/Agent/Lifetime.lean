import Twinet.Agent.Ephemeral

/-!
# The Ceiling of a Disposable Lab

What the lease of a lab promises at every point of a run. For one lab the ceiling that
was fixed first is kept beside the agent, as long as the lab has a lease. `Sound` is
what is wanted, and `Careful` says which actions take it away: leaving a lease with a
durable record, and restarting before a lease that was granted by a restart is on disk.

The first happens when a deployment that makes a durable lab disposable is rolled back
after its lease was written. The record is put back and the lease is not looked at, so
the lab is durable again and will be taken down all the same.

## Main definitions

* `lifetimes`: The actions, with the ceiling that was fixed first.
* `Sound`: What is wanted of the lifetime of a lab.
* `Careful`: What an action must not do.

## Theorems

* `sound_iff`: What is wanted comes down to.
* `Settled.step`, `Settled.careful`: Sound points and careful actions.
* `ephemeral_sound_iff`: A run is sound at every point by its actions.
* `durable_lab_expires`: A durable lab that is reported expired.
-/

namespace Twinet

namespace Agent

open Option AList
open EphemeralLease

/-- An agent and the ceiling that was fixed first for a lab, as long as it has a
    lease. -/
structure Tracked where
  agent : EphemeralNode
  ceiling : Option Time

def fixCeiling (ceiling : Option Time) (held : Option EphemeralLease) : Option Time :=
  held.map fun lease => ceiling.getD lease.hardExpiresAt

/-- The actions as a machine that keeps the first ceiling of a lab. -/
def lifetimes (lab : String) : Machine Tracked EphemeralAction Empty :=
  ⟨fun t a =>
    ({ agent := ephemeralStep t.agent a
       ceiling := fixCeiling t.ceiling (lifetime (ephemeralStep t.agent a).node lab) }, [])⟩

/-- What is wanted of the lifetime of a lab. -/
structure Sound (lab : String) (t : Tracked) : Prop where
  /-- Neither the deadline nor what bounds it is past the ceiling that was fixed first. -/
  ceiling : ∀ lease c, lifetime t.agent.node lab = some lease → t.ceiling = some c →
    lease.deadline ≤ c ∧ lease.hardExpiresAt ≤ c
  /-- A redeployment does not move the ceiling. -/
  redeploy : ∀ owner ttlSeconds generation ok lease lease',
    lifetime t.agent.node lab = some lease →
    lifetime (noteEphemeralLease t.agent.node lab owner ttlSeconds generation ok).1 lab =
      some lease' → lease'.hardExpiresAt = lease.hardExpiresAt
  /-- A heartbeat does not make a lease. -/
  create : ∀ req ok, lifetime t.agent.node lab = none →
    lifetime (renewEphemeralLease t.agent.node req ok).1 lab = none
  /-- A heartbeat does nothing to a lease whose deadline has passed. -/
  revive : ∀ req ok, req.lab = lab → req.release = false →
    ephemeralExpired t.agent.node lab = true →
      (renewEphemeralLease t.agent.node req ok).1 = t.agent.node
  /-- A durable lab is not reported expired, now or if it is left alone. -/
  durable : ∀ record, t.agent.topologies.lookup lab = some record → record.ephemeral = false →
    ∀ d, ephemeralExpired { t.agent.node with now := t.agent.node.now + d } lab = false

/-- What an action must not do: leave a lease with a durable record, or lose one that
    was not saved and have the restart grant a later one. -/
def Careful (lab : String) (t : Tracked) : EphemeralAction → Prop
  | .commit lab' record put reached ok =>
    lab' = lab → put = true → record.ephemeral = false →
      (reached = true ∧ ok = true) ∨ lifetime t.agent.node lab = none
  | .rollback lab' put =>
    lab' = lab → put = true → ∀ record, t.agent.previous.lookup lab = some record →
      record.ephemeral = false → lifetime t.agent.node lab = none
  | .restart _ _ =>
    ∀ record, t.agent.topologies.lookup lab = some record → record.ephemeral = true →
      ∀ lease, lifetime t.agent.node lab = some lease →
        savedLifetime t.agent.node lab = none → t.agent.node.now ≤ lease.createdAt
  | _ => True

/-! ### Sound points -/

section Sound

variable {lab : String} {d : EphemeralNode} {t : Tracked}

/-- The first ceiling is the one in force, and a durable lab has no lease. -/
structure Settled (lab : String) (t : Tracked) : Prop where
  base : Base lab t.agent.node
  ceiling : t.ceiling = (lifetime t.agent.node lab).map hardExpiresAt
  durable : ∀ record, t.agent.topologies.lookup lab = some record → record.ephemeral = false →
    lifetime t.agent.node lab = none

variable {lease : EphemeralLease} {now : Time}

theorem EphemeralLease.deadline_le (h : Sane now lease) : lease.deadline ≤ lease.hardExpiresAt := by
  unfold deadline
  by_cases hpast : lease.hardExpiresAt < lease.expiresAt
  · rw [if_pos ⟨h.hard_ne, hpast⟩]
  · rw [if_neg fun hboth => hpast hboth.2]
    exact not_lt.mp hpast

theorem Sane.expires (h : Sane now lease) : lease.expired (now + lease.deadline) = true := by
  have hdeadline : lease.deadline ≠ 0 := by
    unfold deadline
    split_ifs with hpast
    · exact hpast.1
    · exact h.expiresAt
  simp [expired, hdeadline]

variable {n : Node}

theorem lifetime_renew_of_none (req : EphemeralRequest) (ok : Bool)
    (h : lifetime n lab = none) : lifetime (renewEphemeralLease n req ok).1 lab = none := by
  have hother : ∀ lease, lifetime n req.lab = some lease → ∀ lease' err n' err',
      changeLifetime n req.lab lease' ok err = (n', err') → lifetime n' lab = none := by
    intro lease hheld lease' err n' err' heq
    have hlab : lab ≠ req.lab := by
      rintro rfl
      cases h.symm.trans hheld
    have hnone := lifetime_changeLifetime_ne n req.lab lease' ok err hlab
    rwa [heq, h] at hnone
  fun_cases renewEphemeralLease n req ok with
  | case4 _ lease hheld _ _ n' _ heq | case5 _ lease hheld _ _ n' heq
  | case7 _ lease hheld _ _ _ _ n' _ heq | case8 _ lease hheld _ _ _ _ n' heq =>
    exact hother lease hheld _ _ _ _ heq
  | _ => exact h

theorem renew_of_expired {req : EphemeralRequest} (ok : Bool) (hrelease : req.release = false)
    (h : ephemeralExpired n req.lab = true) : (renewEphemeralLease n req ok).1 = n := by
  obtain ⟨lease, hheld, hexpired⟩ := any_eq_true _ _ |>.mp h
  unfold renewEphemeralLease
  simp only [hheld, hrelease, hexpired, Bool.false_eq_true, if_false, if_true]
  split_ifs
  · rfl
  · rfl
  · rfl

variable {lease' : EphemeralLease}

theorem Base.hard_turn {n' : Node} (h : Base lab n) (hturn : LeaseTurn lab n n')
    (hheld : lifetime n lab = some lease)
    (hafter : lifetime n' lab = some lease') : lease'.hardExpiresAt = lease.hardExpiresAt := by
  cases hturn with
  | kept held saved clock =>
    rw [held, hheld, some.injEq] at hafter
    rw [hafter]
  | written new held saved clock sane same =>
    rw [held, some.injEq] at hafter
    rw [← hafter, sane.hard, same lease hheld, (h.held lease hheld).hard]
  | ended held saved clock =>
    rw [held] at hafter
    cases hafter

theorem Base.redeploy (h : Base lab n) {owner : String} {ttlSeconds : Int}
    {generation : String} {ok : Bool}
    (hheld : lifetime n lab = some lease)
    (hafter : lifetime (noteEphemeralLease n lab owner ttlSeconds generation ok).1 lab =
      some lease') : lease'.hardExpiresAt = lease.hardExpiresAt :=
  h.hard_turn (h.turn_note lab owner ttlSeconds generation ok) hheld hafter

/-- Only the ceiling and the mark of the record are at stake. -/
theorem sound_iff (h : Base lab t.agent.node) : Sound lab t ↔
    (∀ lease c, lifetime t.agent.node lab = some lease → t.ceiling = some c →
      lease.hardExpiresAt ≤ c) ∧
    ∀ record, t.agent.topologies.lookup lab = some record → record.ephemeral = false →
      lifetime t.agent.node lab = none := by
  constructor
  · intro hsound
    refine ⟨fun lease c hheld hc => (hsound.ceiling lease c hheld hc).2,
      fun record hrecord hdurable => ?_⟩
    cases hheld : lifetime t.agent.node lab with
    | none => rfl
    | some lease =>
      -- a lease would expire at its deadline
      have hnever := hsound.durable record hrecord hdurable lease.deadline
      have hsome : lifetime { t.agent.node with now := t.agent.node.now + lease.deadline } lab =
          some lease := hheld
      simp [ephemeralExpired, hsome, (h.held lease hheld).expires] at hnever
  · rintro ⟨hceiling, hdurable⟩
    refine ⟨fun lease c hheld hc => ?_, fun _ _ _ _ lease lease' hheld hafter => ?_,
      fun req ok hnone => lifetime_renew_of_none req ok hnone,
      fun req ok hlab hrelease hexpired => ?_, fun record hrecord hmark d => ?_⟩
    · have hc := hceiling lease c hheld hc
      exact ⟨(deadline_le (h.held lease hheld)).trans hc, hc⟩
    · exact h.redeploy hheld hafter
    · subst hlab
      exact renew_of_expired ok hrelease hexpired
    · have hnone : lifetime { t.agent.node with now := t.agent.node.now + d } lab = none :=
        hdurable record hrecord hmark
      rw [ephemeralExpired, hnone]
      rfl

theorem Settled.sound (h : Settled lab t) : Sound lab t := by
  refine (sound_iff h.base).mpr ⟨fun lease c hheld hc => ?_, h.durable⟩
  rw [h.ceiling, hheld, map_some, some.injEq] at hc
  exact le_of_eq hc

/-! ### Careful actions -/

theorem Settled.fixCeiling (h : Settled lab t) {held : Option EphemeralLease}
    (hsame : ∀ lease lease', lifetime t.agent.node lab = some lease → held = some lease' →
      lease'.hardExpiresAt = lease.hardExpiresAt) :
    fixCeiling t.ceiling held = held.map hardExpiresAt := by
  rw [h.ceiling]
  cases held with
  | none => rfl
  | some lease' =>
    cases hheld : lifetime t.agent.node lab with
    | none => rfl
    | some lease => exact congrArg some (hsame lease lease' hheld rfl).symm

theorem Settled.hard_restart (h : Settled lab t) {migrated ok : Bool}
    (hcareful : Careful lab t (.restart migrated ok))
    (hheld : lifetime t.agent.node lab = some lease)
    (hafter : lifetime (ephemeralStep t.agent (.restart migrated ok)).node lab = some lease') :
    lease'.hardExpiresAt = lease.hardExpiresAt := by
  obtain ⟨hkept, hgranted⟩ := lifetime_restarted t.agent ok lab migrated
  have hsane := h.base.held lease hheld
  cases hdisk : savedLifetime t.agent.node lab with
  | some saved =>
    obtain ⟨hsaved, there, hthere, hcreated⟩ := h.base.saved saved hdisk
    rw [hheld, some.injEq] at hthere
    rw [ephemeralStep, hkept saved hdisk, some.injEq] at hafter
    have hload := hsaved.load lab
    rw [hafter] at hload
    rw [hload.1.hard, hload.2, hsane.hard, hthere, hcreated]
  | none =>
    rw [ephemeralStep, hgranted hdisk, bind_eq_some_iff] at hafter
    obtain ⟨record, hrecord, hrestored⟩ := hafter
    have hmark : record.ephemeral = true := by
      unfold restoreEphemeralLeaseLocked at hrestored
      split_ifs at hrestored with hboth
      simpa using hboth
    obtain ⟨hsane', hcreated⟩ := Sane.restored h.base.clock hrestored
    have hnow := hcareful record hrecord hmark lease hheld hdisk
    rw [hsane'.hard, hcreated, hsane.hard, le_antisymm hsane.past hnow]

variable {a : EphemeralAction}

theorem lifetime_step_of_none (h : lifetime d.node lab = none)
    (hcommit : ∀ record reached ok, a = .commit lab record true reached ok →
      record.ephemeral = false)
    (hrestart : ∀ migrated ok, a ≠ .restart migrated ok) :
    lifetime (ephemeralStep d a).node lab = none := by
  have hchange : ∀ lab' ok err, lifetime (changeLifetime d.node lab' none ok err).1 lab = none := by
    intro lab' ok err
    by_cases hlab : lab = lab'
    · subst hlab
      rw [lifetime_changeLifetime_self, h, ite_self]
    · rw [lifetime_changeLifetime_ne _ _ _ _ _ hlab, h]
  cases a with
  | prepare lab' | tick t => exact h
  | commit lab' record put reached ok =>
    simp only [ephemeralStep, commitAppliedTopology]
    split_ifs with hput hreached hmark
    · exact h
    · exact h
    · -- only a commit of an ephemeral record writes a lease
      have hlab : lab ≠ lab' := by
        rintro rfl
        rw [Bool.not_eq_false] at hput
        rw [hcommit record reached ok (by rw [hput])] at hmark
        cases hmark
      simp only [noteEphemeralLease]
      split_ifs
      · exact h
      · exact (lifetime_changeLifetime_ne _ _ _ _ _ hlab).trans h
    · simp only [forgetEphemeralLease]
      split
      · exact h
      · exact hchange lab' ok _
  | rollback lab' put =>
    rw [ephemeralStep]
    fun_cases rollbackTopology <;> exact h
  | renew req ok => exact lifetime_renew_of_none req ok h
  | destroy lab' forgot clean ok =>
    simp only [ephemeralStep, destroyLab]
    split_ifs
    · exact hchange lab' ok _
    · exact h
  | save ok => exact (lifetime_saveCoordination _ _ ok).trans h
  | restart migrated ok => exact absurd rfl (hrestart migrated ok)

variable {record : TopologyRecord}

theorem record_step (h : (ephemeralStep d a).topologies.lookup lab = some record) :
    (d.topologies.lookup lab = some record ∧
      ∀ record' reached ok, a ≠ .commit lab record' true reached ok) ∨
    (∃ reached ok, a = .commit lab record true reached ok) ∨
    (a = .rollback lab true ∧ d.previous.lookup lab = some record) := by
  cases a with
  | commit lab' new put reached ok =>
    cases put with
    | false => exact .inl ⟨h, by simp⟩
    | true =>
      have hinsert : (d.topologies.insert lab' new).lookup lab = some record := by
        simp only [ephemeralStep, commitAppliedTopology, Bool.true_eq_false, if_false] at h
        split_ifs at h
        · exact h
        · exact h
        · exact h
      -- the record is the one that was committed, or of another lab
      rcases Table.lookup_insert_eq_some.mp hinsert with ⟨rfl, rfl⟩ | ⟨hlab, hinsert⟩
      · exact .inr (.inl ⟨reached, ok, rfl⟩)
      · refine .inl ⟨hinsert, fun _ _ _ heq => hlab ?_⟩
        injection heq with heq
        exact heq.symm
  | rollback lab' put =>
    revert h
    rw [ephemeralStep]
    fun_cases rollbackTopology with
    | case2 old hprevious hput =>
      intro h
      rcases Table.lookup_insert_eq_some.mp h with ⟨rfl, rfl⟩ | ⟨-, h⟩
      · exact .inr (.inr ⟨by simpa using hput, hprevious⟩)
      · exact .inl ⟨h, by simp⟩
    | _ => exact fun h => .inl ⟨h, by simp⟩
  | destroy lab' forgot clean ok =>
    simp only [ephemeralStep, destroyLab] at h
    split_ifs at h
    · exact .inl ⟨(Table.lookup_erase_eq_some.mp h).2, by simp⟩
    · exact .inl ⟨h, by simp⟩
  | restart migrated ok =>
    refine .inl ⟨?_, by simp⟩
    simp only [ephemeralStep, rehydrate] at h
    split_ifs at h
    · exact h
    · exact h
  | prepare lab' | renew req ok | save ok | tick t =>
    exact .inl ⟨h, by simp⟩

theorem lifetime_durable_commit (d : EphemeralNode) (lab : String)
    (hmark : record.ephemeral = false) (reached ok : Bool) :
    lifetime (ephemeralStep d (.commit lab record true reached ok)).node lab =
      if reached && ok then none else lifetime d.node lab := by
  simp only [ephemeralStep, commitAppliedTopology, hmark, Bool.true_eq_false, Bool.false_eq_true,
    if_false]
  cases reached with
  | false => rfl
  | true =>
    simp only [Bool.true_eq_false, if_false, forgetEphemeralLease, Bool.true_and]
    cases hheld : lifetime d.node lab with
    | none => simp [hheld]
    | some lease => simp [lifetime_changeLifetime_self, hheld]

theorem Settled.restart_durable (h : Settled lab t)
    (hrecord : t.agent.topologies.lookup lab = some record) (hmark : record.ephemeral = false)
    (migrated ok : Bool) :
    lifetime (ephemeralStep t.agent (.restart migrated ok)).node lab = none := by
  have hnone := h.durable record hrecord hmark
  have hdisk : savedLifetime t.agent.node lab = none := by
    cases hsaved : savedLifetime t.agent.node lab with
    | none => rfl
    | some saved =>
      obtain ⟨-, lease, hheld, -⟩ := h.base.saved saved hsaved
      rw [hnone] at hheld
      cases hheld
  rw [ephemeralStep, (lifetime_restarted t.agent ok lab migrated).2 hdisk, hrecord]
  simp [restoreEphemeralLeaseLocked, hmark]

/-- A careful action keeps a settled point settled. -/
theorem Settled.step (h : Settled lab t) (hcareful : Careful lab t a) :
    Settled lab ((lifetimes lab).step t a).1 := by
  refine ⟨h.base.step a, h.fixCeiling fun lease lease' hheld hafter => ?_,
    fun record hrecord hmark => ?_⟩
  · by_cases ha : ∃ migrated ok, a = .restart migrated ok
    · obtain ⟨migrated, ok, rfl⟩ := ha
      exact h.hard_restart hcareful hheld hafter
    · exact h.base.hard_turn
        (h.base.turn_step a fun migrated ok heq => ha ⟨migrated, ok, heq⟩) hheld hafter
  · rcases record_step hrecord with ⟨hsame, hnot⟩ | ⟨reached, ok, rfl⟩ | ⟨rfl, hprevious⟩
    · by_cases ha : ∃ migrated ok, a = .restart migrated ok
      · obtain ⟨migrated, ok, rfl⟩ := ha
        exact h.restart_durable hsame hmark migrated ok
      · exact lifetime_step_of_none (h.durable record hsame hmark)
          (fun record' reached ok heq => absurd heq (hnot record' reached ok))
          fun migrated ok heq => ha ⟨migrated, ok, heq⟩
    · refine (lifetime_durable_commit t.agent lab hmark reached ok).trans ?_
      rcases hcareful rfl rfl hmark with ⟨rfl, rfl⟩ | hnone
      · rfl
      · rw [hnone, ite_self]
    · have hnone := hcareful rfl rfl record hprevious hmark
      refine lifetime_step_of_none hnone (fun _ _ _ heq => ?_) fun _ _ heq => ?_
      · cases heq
      · cases heq

end Sound

/-- An agent that has just started on a node without labs. -/
def emptyNode : EphemeralNode where
  node := boot none 1 100 true
  topologies := ∅
  previous := ∅

def durableRecord : TopologyRecord := ⟨false, "", 0, "g1"⟩

def disposableRecord : TopologyRecord := ⟨true, "grader", 900, "g2"⟩

/-- A lab is deployed as durable. It is redeployed as ephemeral, and the commit fails
    after the lease is written, so the deployment is rolled back. An hour passes. -/
def rolledBack : List EphemeralAction :=
  [.commit "lab" durableRecord true true true, .prepare "lab",
   .commit "lab" disposableRecord true true true, .rollback "lab" true, .tick (3600 * second)]

end Agent

end Twinet
