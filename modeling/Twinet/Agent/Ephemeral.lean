import Twinet.Agent.Fence

/-!
# Disposable Labs

A lab may be deployed as ephemeral. It then has a lease with a deadline, which the
heartbeats of its controller move, and a ceiling that no heartbeat moves it past.
When the deadline has passed, the node takes the lab down on its own. A lab that is
deployed as durable has no lease, and no part of this touches it.

Whether a lab is ephemeral is in its topology record and the lease is in the
coordination file, and the two are written one after the other. Everything that
writes either is an action here: the two ends of a deployment, its rollback, the
heartbeats, a destroy, the saves of other operations and the restart of the agent,
which reads both back and grants a lease to an ephemeral lab that has lost its own.

What an action does to the lease of one lab is a `LeaseTurn`, whichever lab it is about:
the lease is kept, written with the ceiling of the one before, or ended. A restart is
looked at by itself.

## Main definitions

* `EphemeralNode`: An agent with the topology records of its labs.
* `ephemeralStep`: Everything that writes a record or a lease.
* `LeaseTurn`: What an action can do to the lease of one lab.

## Theorems

* `Base.turn_step`: What an action does to the lease of a lab.
* `lifetime_restarted`: What a restart makes of it.
* `Base.step`: What every action keeps.
-/

namespace Twinet

namespace Agent

open Option (map_none map_some some)

def defaultEphemeralTTLSeconds : Int := 900

def maxEphemeralTTLSeconds : Int := 3600

/-- What a lab gets at least that has lost its lease. -/
def ephemeralRestartGrace : Time := 15 * 60 * second

namespace EphemeralLease

def deadline (l : EphemeralLease) : Time :=
  if l.hardExpiresAt ≠ 0 ∧ l.hardExpiresAt < l.expiresAt then l.hardExpiresAt else l.expiresAt

def expired (l : EphemeralLease) (now : Time) : Bool :=
  l.deadline ≠ 0 && !decide (now < l.deadline)

end EphemeralLease

structure EphemeralRequest where
  lab : String
  owner : String
  ttlSeconds : Int
  release : Bool
deriving DecidableEq, Repr

structure EphemeralResponse where
  lab : String
  ephemeral : Bool
  owner : String
  ttlSeconds : Int
  expiresAt : Time
  hardExpiresAt : Time
deriving DecidableEq, Repr

inductive EphemeralError where
  | leaseMustNameLab
  | labRequired
  | notEphemeral (lab : String)
  | heldBy (lab owner requester : String)
  | expiredAt (lab : String) (deadline : Time)
  | persistLease
  | persistReleased
  | persistRenewed
  | persistDurable
  | persistDestroyed
deriving DecidableEq, Repr

/-- The seconds of a lifetime: a default where none is asked for, and never more than
    the maximum. -/
def clampEphemeralSeconds (seconds : Int) : Int :=
  let seconds := if seconds ≤ 0 then defaultEphemeralTTLSeconds else seconds
  if seconds > maxEphemeralTTLSeconds then maxEphemeralTTLSeconds else seconds

def clampEphemeralTTL (seconds : Int) : Time := (clampEphemeralSeconds seconds).toNat * second

/-! ### The lease of a lab -/

section

variable (n : Node) (lab : String)

/-- The lease of a lab in memory. -/
def lifetime : Option EphemeralLease := n.server.ephemeral.lookup lab

/-- The lease of a lab on disk. -/
def savedLifetime : Option EphemeralLease :=
  n.disk.bind fun c => c.ephemeral.lookup lab

/-- Write or delete the lease of a lab. -/
def setLifetime : Option EphemeralLease → Node
  | some lease =>
    { n with server := { n.server with ephemeral := n.server.ephemeral.insert lab lease } }
  | none => { n with server := { n.server with ephemeral := n.server.ephemeral.erase lab } }

/-- Write or delete the lease of a lab and save, or put back what was there. -/
def changeLifetime (lease : Option EphemeralLease) (ok : Bool)
    (err : EphemeralError) : Node × Option EphemeralError :=
  let written := setLifetime n lab lease
  if ok then (saveCoordination written true, none)
  else (setLifetime written lab (lifetime n lab), some err)

/-- A redeployment renews the lease and keeps the ceiling of the one before. -/
def notedLease (owner : String) (ttlSeconds : Int) (generation : String) : EphemeralLease :=
  let fresh : EphemeralLease :=
    { lab := lab, owner := owner, ttlSeconds := clampEphemeralSeconds ttlSeconds
      generation := generation, createdAt := n.now
      expiresAt := n.now + clampEphemeralTTL ttlSeconds
      hardExpiresAt := n.now + maxEphemeralLifetime, restored := false }
  match lifetime n lab with
  | none => fresh
  | some previous =>
    if previous.createdAt ≠ 0 ∧ previous.hardExpiresAt ≠ 0 then
      { fresh with createdAt := previous.createdAt, hardExpiresAt := previous.hardExpiresAt }
    else fresh

def noteEphemeralLease (owner : String) (ttlSeconds : Int) (generation : String)
    (ok : Bool) : Node × Option EphemeralError :=
  if lab = "" then (n, some .leaseMustNameLab)
  else changeLifetime n lab (some (notedLease n lab owner ttlSeconds generation)) ok .persistLease

/-- A heartbeat moves the deadline, but not past the ceiling. -/
def renewedLease (now : Time) (lease : EphemeralLease) (ttlSeconds : Int) : EphemeralLease :=
  let asked := if ttlSeconds ≤ 0 ∧ 0 < lease.ttlSeconds then lease.ttlSeconds else ttlSeconds
  let expiresAt := now + clampEphemeralTTL asked
  { lease with
    ttlSeconds := clampEphemeralSeconds asked
    expiresAt := if lease.hardExpiresAt ≠ 0 ∧ lease.hardExpiresAt < expiresAt then
        lease.hardExpiresAt
      else expiresAt
    restored := false }

/-- A heartbeat, or the release of an orderly teardown. -/
def renewEphemeralLease (req : EphemeralRequest) (ok : Bool) :
    Node × Except EphemeralError EphemeralResponse :=
  if req.lab = "" then (n, .error .labRequired)
  else match lifetime n req.lab with
    | none => (n, .error (.notEphemeral req.lab))
    | some lease =>
      if lease.owner ≠ "" ∧ req.owner ≠ "" ∧ lease.owner ≠ req.owner then
        (n, .error (.heldBy req.lab lease.owner req.owner))
      else if req.release then
        match changeLifetime n req.lab none ok .persistReleased with
        | (n', some err) => (n', .error err)
        | (n', none) => (n', .ok ⟨req.lab, false, "", 0, 0, 0⟩)
      else if lease.expired n.now then (n, .error (.expiredAt req.lab lease.deadline))
      else
        let renewed := renewedLease n.now lease req.ttlSeconds
        match changeLifetime n req.lab (some renewed) ok .persistRenewed with
        | (n', some err) => (n', .error err)
        | (n', none) =>
          (n', .ok ⟨req.lab, true, renewed.owner, renewed.ttlSeconds, renewed.expiresAt,
            renewed.hardExpiresAt⟩)

/-- A lab that is redeployed without the mark is durable from then on. -/
def forgetEphemeralLease (ok : Bool) : Node × Option EphemeralError :=
  match lifetime n lab with
  | none => (n, none)
  | some _ => changeLifetime n lab none ok .persistDurable

def ephemeralExpired : Bool :=
  (lifetime n lab).any fun lease => lease.expired n.now

/-! ### The record of a lab -/

/-- What the topology record of a lab says about its lifetime. -/
structure TopologyRecord where
  ephemeral : Bool
  owner : String
  ttlSeconds : Int
  generation : String
deriving DecidableEq, Repr

/-- The lease that is granted to a lab whose record is ephemeral and that has none. -/
def restoreEphemeralLeaseLocked (now : Time) (lab : String) (held : Option EphemeralLease)
    (record : TopologyRecord) : Option EphemeralLease :=
  if record.ephemeral && held.isNone then
    let ttl := clampEphemeralTTL record.ttlSeconds
    let ttl := if ttl < ephemeralRestartGrace then ephemeralRestartGrace else ttl
    some { lab := lab, owner := "", ttlSeconds := (ttl / second : Nat)
           generation := record.generation, createdAt := now, expiresAt := now + ttl
           hardExpiresAt := now + maxEphemeralLifetime, restored := true }
  else none

/-- An agent with the topology records of its labs, and those that the transactions
    would be rolled back to. -/
structure EphemeralNode where
  node : Node
  topologies : Table String TopologyRecord
  previous : Table String TopologyRecord

end

section

variable (d : EphemeralNode) (lab : String)

/-- Read the records back and grant the leases that are missing. A failed save is
    only logged. -/
def rehydrate (ok : Bool) : EphemeralNode :=
  let restored := Table.mergeWith (restoreEphemeralLeaseLocked d.node.now) d.node.server.ephemeral
    d.topologies
  let node := { d.node with server := { d.node.server with ephemeral := restored } }
  if d.topologies.any fun lab record =>
      (restoreEphemeralLeaseLocked d.node.now lab (lifetime d.node lab) record).isSome then
    { d with node := saveCoordination node ok }
  else { d with node := node }

/-- The record of the lab is what its transaction would be rolled back to. -/
def prepareTopology : EphemeralNode :=
  { d with previous := match d.topologies.lookup lab with
    | some record => d.previous.insert lab record
    | none => d.previous.erase lab }

/-- The commit writes the record and then the lease. It does not come to the lease if
    only some steps were asked for or if the agent stops in between. -/
def commitAppliedTopology (record : TopologyRecord) (put reached ok : Bool) : EphemeralNode :=
  if put = false then d
  else
    let d := { d with topologies := d.topologies.insert lab record }
    if reached = false then d
    else if record.ephemeral then
      { d with node :=
          (noteEphemeralLease d.node lab record.owner record.ttlSeconds record.generation ok).1 }
    else { d with node := (forgetEphemeralLease d.node lab ok).1 }

/-- A rollback writes the previous record again. The lease is not looked at. -/
def rollbackTopology (put : Bool) : EphemeralNode :=
  match d.previous.lookup lab with
  | none => d
  | some record => if put then { d with topologies := d.topologies.insert lab record } else d

/-- A lab is taken down: its record goes, and then its lease with all else that is
    kept for it, or nothing of that. The lease is kept where the record could not be
    forgotten or something else was left behind. -/
def destroyLab (forgot clean ok : Bool) : EphemeralNode :=
  { d with
    topologies := if forgot then d.topologies.erase lab else d.topologies
    node := if forgot && clean then (changeLifetime d.node lab none ok .persistDestroyed).1
      else d.node }

/-! ### The machine -/

inductive EphemeralAction where
  | prepare (lab : String)
  | commit (lab : String) (record : TopologyRecord) (put reached ok : Bool)
  | rollback (lab : String) (put : Bool)
  | renew (req : EphemeralRequest) (ok : Bool)
  | destroy (lab : String) (forgot clean ok : Bool)
  | save (ok : Bool)
  | restart (migrated ok : Bool)
  | tick (d : Time)

def ephemeralStep : EphemeralAction → EphemeralNode
  | .prepare lab => prepareTopology d lab
  | .commit lab record put reached ok => commitAppliedTopology d lab record put reached ok
  | .rollback lab put => rollbackTopology d lab put
  | .renew req ok => { d with node := (renewEphemeralLease d.node req ok).1 }
  | .destroy lab forgot clean ok => destroyLab d lab forgot clean ok
  | .save ok => { d with node := saveCoordination d.node ok }
  | .restart migrated ok => rehydrate { d with node := restart d.node migrated } ok
  | .tick t => { d with node := { d.node with now := d.node.now + t } }

end

/-! ### Writing a lease -/

section Change

variable (n : Node) (lab : String) (lease : Option EphemeralLease)

@[simp]
theorem lifetime_setLifetime_self : lifetime (setLifetime n lab lease) lab = lease := by
  cases lease with
  | none => exact AList.lookup_erase _ _
  | some lease => exact AList.lookup_insert _

variable {lab' : String}

theorem lifetime_setLifetime_ne (h : lab' ≠ lab) :
    lifetime (setLifetime n lab lease) lab' = lifetime n lab' := by
  cases lease with
  | none => exact AList.lookup_erase_ne h
  | some lease => exact AList.lookup_insert_ne h

theorem disk_setLifetime : (setLifetime n lab lease).disk = n.disk := by
  cases lease with
  | none | some lease => rfl

theorem now_setLifetime : (setLifetime n lab lease).now = n.now := by
  cases lease with
  | none | some lease => rfl

theorem savedLifetime_saveCoordination (ok : Bool) :
    savedLifetime (saveCoordination n ok) lab =
      if ok then lifetime n lab else savedLifetime n lab := by
  cases ok with
  | false | true => rfl

theorem lifetime_saveCoordination (ok : Bool) :
    lifetime (saveCoordination n ok) lab = lifetime n lab := by
  rw [lifetime, server_saveCoordination, lifetime]

variable (ok : Bool) (err : EphemeralError)

theorem now_changeLifetime : (changeLifetime n lab lease ok err).1.now = n.now := by
  cases ok with
  | false => exact (now_setLifetime _ _ _).trans (now_setLifetime _ _ _)
  | true => exact (now_saveCoordination _ _).trans (now_setLifetime _ _ _)

theorem lifetime_changeLifetime_self : lifetime (changeLifetime n lab lease ok err).1 lab =
    if ok then lease else lifetime n lab := by
  cases ok with
  | false => exact lifetime_setLifetime_self _ _ _
  | true => exact (lifetime_saveCoordination _ _ _).trans (lifetime_setLifetime_self _ _ _)

theorem lifetime_changeLifetime_ne (h : lab' ≠ lab) :
    lifetime (changeLifetime n lab lease ok err).1 lab' = lifetime n lab' := by
  cases ok with
  | false =>
    exact (lifetime_setLifetime_ne _ _ _ h).trans (lifetime_setLifetime_ne _ _ _ h)
  | true => exact (lifetime_saveCoordination _ _ _).trans (lifetime_setLifetime_ne _ _ _ h)

theorem savedLifetime_changeLifetime (lab' : String) :
    savedLifetime (changeLifetime n lab lease ok err).1 lab' =
      if ok then lifetime (changeLifetime n lab lease ok err).1 lab' else savedLifetime n lab' := by
  cases ok with
  | false =>
    simp [changeLifetime, savedLifetime, disk_setLifetime]
  | true =>
    simp [changeLifetime, savedLifetime_saveCoordination, lifetime_saveCoordination]

end Change

/-! ### What every action keeps -/

/-- A lease as this agent makes them. -/
structure Sane (now : Time) (lease : EphemeralLease) : Prop where
  createdAt : lease.createdAt ≠ 0
  past : lease.createdAt ≤ now
  hard : lease.hardExpiresAt = lease.createdAt + maxEphemeralLifetime
  expiresAt : lease.expiresAt ≠ 0

/-- The lease of the lab is one of ours, and so is the one on disk, which is there
    only with the other and has the same ceiling. -/
structure Base (lab : String) (n : Node) : Prop where
  clock : n.now ≠ 0
  held : ∀ lease, lifetime n lab = some lease → Sane n.now lease
  saved : ∀ lease, savedLifetime n lab = some lease → Sane n.now lease ∧
    ∃ lease', lifetime n lab = some lease' ∧ lease'.createdAt = lease.createdAt

/-- What an action other than a restart does to the lease of a lab. -/
inductive LeaseTurn (lab : String) (n n' : Node) : Prop where
  | kept (held : lifetime n' lab = lifetime n lab)
      (saved : savedLifetime n' lab = savedLifetime n lab ∨ savedLifetime n' lab = lifetime n lab)
      (clock : n.now ≤ n'.now)
  | written (lease : EphemeralLease) (held : lifetime n' lab = some lease)
      (saved : savedLifetime n' lab = some lease) (clock : n'.now = n.now)
      (sane : Sane n.now lease)
      (same : ∀ before, lifetime n lab = some before → lease.createdAt = before.createdAt)
  | ended (held : lifetime n' lab = none) (saved : savedLifetime n' lab = none)
      (clock : n'.now = n.now)

variable {lease : EphemeralLease} {now : Time}

section Turn

variable {lab : String} {n n' : Node}

theorem Sane.mono {now' : Time} (h : Sane now lease) (hnow : now ≤ now') : Sane now' lease :=
  { h with past := h.past.trans hnow }

theorem LeaseTurn.refl : LeaseTurn lab n n := .kept rfl (.inl rfl) (le_refl _)

theorem Base.turn (h : Base lab n) (hturn : LeaseTurn lab n n') : Base lab n' := by
  cases hturn with
  | kept held saved clock =>
    refine ⟨fun hzero => h.clock (Nat.le_zero.mp (hzero ▸ clock)), fun lease hlease => ?_,
      fun lease hlease => ?_⟩
    · exact (h.held lease (held ▸ hlease)).mono clock
    · rcases saved with hsame | hmemory
      · obtain ⟨hsane, hthere⟩ := h.saved lease (hsame ▸ hlease)
        rw [held]
        exact ⟨hsane.mono clock, hthere⟩
      · rw [hmemory] at hlease
        rw [held]
        exact ⟨(h.held lease hlease).mono clock, lease, hlease, rfl⟩
  | written lease held saved clock sane same =>
    refine ⟨clock ▸ h.clock, fun lease' hlease => ?_, fun lease' hlease => ?_⟩
    · rw [held, some.injEq] at hlease
      rw [← hlease, clock]
      exact sane
    · rw [saved, some.injEq] at hlease
      rw [← hlease, clock]
      exact ⟨sane, lease, held, rfl⟩
  | ended held saved clock =>
    refine ⟨clock ▸ h.clock, fun lease hlease => ?_, fun lease hlease => ?_⟩
    · rw [held] at hlease
      cases hlease
    · rw [saved] at hlease
      cases hlease

theorem turn_changeLifetime (lab' : String) (lease : Option EphemeralLease) (ok : Bool)
    (err : EphemeralError)
    (hsane : lab' = lab → ∀ l, lease = some l → Sane n.now l ∧
      ∀ before, lifetime n lab = some before → l.createdAt = before.createdAt) :
    LeaseTurn lab n (changeLifetime n lab' lease ok err).1 := by
  have hsaved := savedLifetime_changeLifetime n lab' lease ok err lab
  have hnow := now_changeLifetime n lab' lease ok err
  by_cases hlab : lab' = lab
  · subst hlab
    have hheld := lifetime_changeLifetime_self n lab' lease ok err
    cases ok with
    | false => exact .kept hheld (.inl hsaved) (le_of_eq hnow.symm)
    | true =>
      rw [if_pos rfl] at hheld hsaved
      rw [hheld] at hsaved
      cases lease with
      | none => exact .ended hheld hsaved hnow
      | some l => exact .written l hheld hsaved hnow (hsane rfl l rfl).1 (hsane rfl l rfl).2
  · have hheld := lifetime_changeLifetime_ne n lab' lease ok err (Ne.symm hlab)
    refine .kept hheld ?_ (le_of_eq hnow.symm)
    cases ok with
    | false => exact .inl hsaved
    | true => exact .inr (hsaved.trans hheld)

theorem clampEphemeralTTL_pos (seconds : Int) : 0 < clampEphemeralTTL seconds := by
  have hdefault : defaultEphemeralTTLSeconds = 900 := rfl
  have hmax : maxEphemeralTTLSeconds = 3600 := rfl
  have hsecond : 0 < second := by decide
  refine Nat.mul_pos ?_ hsecond
  simp only [clampEphemeralSeconds, hdefault, hmax]
  split_ifs <;> omega

theorem Sane.hard_ne {lease : EphemeralLease} {now : Time} (h : Sane now lease) :
    lease.hardExpiresAt ≠ 0 := by
  rw [h.hard]
  exact Nat.ne_of_gt (Nat.add_pos_right _ (by decide))

theorem Base.noted (h : Base lab n) (owner : String) (ttlSeconds : Int) (generation : String) :
    Sane n.now (notedLease n lab owner ttlSeconds generation) ∧
      ∀ before, lifetime n lab = some before →
        (notedLease n lab owner ttlSeconds generation).createdAt = before.createdAt := by
  have hexpires : n.now + clampEphemeralTTL ttlSeconds ≠ 0 :=
    Nat.ne_of_gt (Nat.add_pos_right _ (clampEphemeralTTL_pos _))
  unfold notedLease
  cases hheld : lifetime n lab with
  | none => exact ⟨⟨h.clock, le_refl _, rfl, hexpires⟩, nofun⟩
  | some previous =>
    have hsane := h.held previous hheld
    simp only [if_pos (And.intro hsane.createdAt hsane.hard_ne)]
    refine ⟨{ hsane with expiresAt := hexpires }, fun before hbefore => ?_⟩
    rw [some.inj hbefore]

theorem Base.turn_note (h : Base lab n) (lab' owner : String) (ttlSeconds : Int)
    (generation : String) (ok : Bool) :
    LeaseTurn lab n (noteEphemeralLease n lab' owner ttlSeconds generation ok).1 := by
  unfold noteEphemeralLease
  split_ifs
  · exact .refl
  · refine turn_changeLifetime lab' _ ok _ ?_
    rintro rfl l hl
    rw [← some.inj hl]
    exact h.noted owner ttlSeconds generation

theorem turn_forget (lab' : String) (ok : Bool) :
    LeaseTurn lab n (forgetEphemeralLease n lab' ok).1 := by
  unfold forgetEphemeralLease
  split
  · exact .refl
  · exact turn_changeLifetime lab' none ok _ nofun

theorem Sane.renewed (h : Sane now lease)
    (ttlSeconds : Int) : Sane now (renewedLease now lease ttlSeconds) := by
  refine { h with expiresAt := ?_ }
  simp only [renewedLease]
  generalize (if ttlSeconds ≤ 0 ∧ 0 < lease.ttlSeconds then lease.ttlSeconds else ttlSeconds) =
    asked
  split_ifs with hpast
  · exact hpast.1
  · exact Nat.ne_of_gt (Nat.add_pos_right _ (clampEphemeralTTL_pos _))

theorem Base.turn_renew (h : Base lab n) (req : EphemeralRequest) (ok : Bool) :
    LeaseTurn lab n (renewEphemeralLease n req ok).1 := by
  fun_cases renewEphemeralLease n req ok with
  | case4 _ _ _ _ _ n' _ heq | case5 _ _ _ _ _ n' heq =>
    have hturn : LeaseTurn lab n (changeLifetime n req.lab none ok .persistReleased).1 :=
      turn_changeLifetime req.lab none ok _ nofun
    rwa [heq] at hturn
  | case7 _ lease hheld _ _ _ renewed n' _ heq | case8 _ lease hheld _ _ _ renewed n' heq =>
    have hturn : LeaseTurn lab n
        (changeLifetime n req.lab (some renewed) ok .persistRenewed).1 := by
      refine turn_changeLifetime req.lab _ ok _ ?_
      rintro rfl l hl
      rw [← some.inj hl]
      refine ⟨(h.held lease hheld).renewed _, fun before hbefore => ?_⟩
      rw [hheld, some.injEq] at hbefore
      rw [← hbefore]
      rfl
    rwa [heq] at hturn
  | _ => exact .refl

theorem turn_save (ok : Bool) : LeaseTurn lab n (saveCoordination n ok) := by
  refine .kept (lifetime_saveCoordination n lab ok) ?_
    (le_of_eq (now_saveCoordination n ok).symm)
  rw [savedLifetime_saveCoordination]
  cases ok with
  | false => exact .inl rfl
  | true => exact .inr rfl

end Turn

/-! ### Restarting -/

section Restart

variable {lab : String} {n : Node}

theorem Sane.load (h : Sane now lease) (lab : String) :
    Sane now (loadEphemeral now lab lease).1 ∧
      (loadEphemeral now lab lease).1.createdAt = lease.createdAt := by
  unfold loadEphemeral
  by_cases hlab : lease.lab = ""
  · simp only [if_pos hlab, if_neg h.hard_ne, and_true]
    exact { h with }
  · simp only [if_neg hlab, if_neg h.hard_ne, and_true]
    exact h

theorem now_restart (n : Node) (ok : Bool) : (restart n ok).now = n.now := by
  unfold restart
  fun_cases loadCoordination with
  | case2 => exact now_saveCoordination _ ok
  | _ => rfl

theorem lifetime_restart (n : Node) (lab : String) (ok : Bool) : lifetime (restart n ok) lab =
    (savedLifetime n lab).map fun lease => (loadEphemeral n.now lab lease).1 := by
  have hread : ∀ disk, n.disk = some disk →
      lifetime { n with server := mergeCoordination initCoordination disk n.now }.expire.1 lab =
        (savedLifetime n lab).map fun lease => (loadEphemeral n.now lab lease).1 := by
    intro disk hdisk
    simp only [savedLifetime, hdisk, lifetime, Node.expire, expireCoordination, mergeCoordination,
      Table.lookup_mergeWith, initCoordination, Option.bind_some]
    cases disk.ephemeral.lookup lab with
    | none | some lease => rfl
  unfold restart
  fun_cases loadCoordination with
  | case1 hdisk =>
    rw [savedLifetime, show n.disk = none from hdisk]
    rfl
  | case2 disk hdisk m => exact (lifetime_saveCoordination m lab ok).trans (hread disk hdisk)
  | case3 disk hdisk => exact hread disk hdisk

theorem savedLifetime_restart (n : Node) (lab : String) (ok : Bool) :
    savedLifetime (restart n ok) lab = savedLifetime n lab ∨
      savedLifetime (restart n ok) lab = lifetime (restart n ok) lab := by
  unfold restart
  fun_cases loadCoordination with
  | case2 =>
    cases ok with
    | false => exact .inl rfl
    | true => exact .inr rfl
  | _ => exact .inl rfl

variable (d : EphemeralNode) (ok : Bool)

theorem now_rehydrate : (rehydrate d ok).node.now = d.node.now := by
  unfold rehydrate
  simp only
  split_ifs
  · exact now_saveCoordination _ ok
  · rfl

theorem lifetime_rehydrate (lab : String) : lifetime (rehydrate d ok).node lab =
    ((d.topologies.lookup lab).bind
      (restoreEphemeralLeaseLocked d.node.now lab (lifetime d.node lab))).or
        (lifetime d.node lab) := by
  fun_cases rehydrate with
  | case1 => rw [lifetime_saveCoordination, lifetime, Table.lookup_mergeWith, ← lifetime]
  | case2 => rw [lifetime, Table.lookup_mergeWith, ← lifetime]

theorem savedLifetime_rehydrate (lab : String) :
    savedLifetime (rehydrate d ok).node lab = savedLifetime d.node lab ∨
      savedLifetime (rehydrate d ok).node lab = lifetime (rehydrate d ok).node lab := by
  unfold rehydrate
  simp only
  split_ifs
  · cases ok with
    | false => exact .inl rfl
    | true => exact .inr rfl
  · exact .inl rfl

theorem Sane.restored (hclock : now ≠ 0) {record : TopologyRecord}
    (h : restoreEphemeralLeaseLocked now lab none record = some lease) :
    Sane now lease ∧ lease.createdAt = now := by
  unfold restoreEphemeralLeaseLocked at h
  split_ifs at h
  rw [← some.inj h]
  refine ⟨⟨hclock, Nat.le_refl _, rfl, Nat.ne_of_gt (Nat.add_pos_left ?_ _)⟩, rfl⟩
  exact Nat.pos_of_ne_zero hclock

/-- After a restart a lab has the lease that was saved, or if there was none the one
    its record entitles it to. -/
theorem lifetime_restarted (lab : String) (migrated : Bool) :
    (∀ lease, savedLifetime d.node lab = some lease →
      lifetime (rehydrate { d with node := restart d.node migrated } ok).node lab =
        some (loadEphemeral d.node.now lab lease).1) ∧
    (savedLifetime d.node lab = none →
      lifetime (rehydrate { d with node := restart d.node migrated } ok).node lab =
        (d.topologies.lookup lab).bind (restoreEphemeralLeaseLocked d.node.now lab none)) := by
  have hread := lifetime_restart d.node lab migrated
  constructor
  · intro lease hlease
    rw [hlease, map_some] at hread
    rw [lifetime_rehydrate, hread]
    cases d.topologies.lookup lab with
    | none => rfl
    | some record => simp [restoreEphemeralLeaseLocked]
  · intro hnone
    rw [hnone, map_none] at hread
    rw [lifetime_rehydrate, hread, now_restart, Option.or_none]

/-- What is on disk then was there before, or is what is in memory. -/
theorem savedLifetime_restarted (lab : String) (migrated : Bool) :
    savedLifetime (rehydrate { d with node := restart d.node migrated } ok).node lab =
        savedLifetime d.node lab ∨
      savedLifetime (rehydrate { d with node := restart d.node migrated } ok).node lab =
        lifetime (rehydrate { d with node := restart d.node migrated } ok).node lab := by
  rcases savedLifetime_rehydrate { d with node := restart d.node migrated } ok lab with h | h
  · rw [h]
    rcases savedLifetime_restart d.node lab migrated with hsame | hmemory
    · exact .inl hsame
    · cases hdisk : savedLifetime d.node lab with
      | none => exact .inl (by rw [hmemory, lifetime_restart, hdisk, map_none])
      | some saved =>
        refine .inr ?_
        rw [hmemory, lifetime_restart, hdisk, (lifetime_restarted d ok lab migrated).1 saved hdisk,
          map_some]
  · exact .inr h

theorem Base.restart {d : EphemeralNode} (h : Base lab d.node) (migrated ok : Bool) :
    Base lab (rehydrate { d with node := restart d.node migrated } ok).node := by
  obtain ⟨hkept, hgranted⟩ := lifetime_restarted d ok lab migrated
  have hnow : (rehydrate { d with node := Agent.restart d.node migrated } ok).node.now =
      d.node.now := (now_rehydrate _ ok).trans (now_restart d.node migrated)
  have hheld : ∀ lease, lifetime (rehydrate { d with node := Agent.restart d.node migrated }
      ok).node lab = some lease → Sane d.node.now lease := by
    intro lease hlease
    cases hdisk : savedLifetime d.node lab with
    | none =>
      rw [hgranted hdisk, Option.bind_eq_some_iff] at hlease
      obtain ⟨record, -, hrestored⟩ := hlease
      exact (Sane.restored h.clock hrestored).1
    | some saved =>
      rw [hkept saved hdisk, some.injEq] at hlease
      exact hlease ▸ ((h.saved saved hdisk).1.load lab).1
  refine ⟨hnow ▸ h.clock, hnow ▸ hheld, fun lease hlease => ?_⟩
  rw [hnow]
  rcases savedLifetime_restarted d ok lab migrated with hsame | hmemory
  · rw [hsame] at hlease
    have hsane := (h.saved lease hlease).1
    exact ⟨hsane, _, hkept lease hlease, (hsane.load lab).2⟩
  · rw [hmemory] at hlease
    exact ⟨hheld lease hlease, lease, hlease, rfl⟩

end Restart

/-! ### All the actions -/

section Step

variable {lab : String} {d : EphemeralNode}

/-- Whatever the action, the lease of the lab takes one turn. -/
theorem Base.turn_step (h : Base lab d.node) (a : EphemeralAction)
    (ha : ∀ migrated ok, a ≠ .restart migrated ok) :
    LeaseTurn lab d.node (ephemeralStep d a).node := by
  cases a with
  | prepare lab' => exact .refl
  | commit lab' record put reached ok =>
    rw [ephemeralStep]
    fun_cases commitAppliedTopology with
    | case1 | case2 => exact .refl
    | case3 => exact h.turn_note ..
    | case4 => exact turn_forget ..
  | rollback lab' put =>
    rw [ephemeralStep]
    fun_cases rollbackTopology <;> exact .refl
  | renew req ok => exact h.turn_renew req ok
  | destroy lab' forgot clean ok =>
    simp only [ephemeralStep, destroyLab]
    split_ifs
    · exact turn_changeLifetime lab' none ok _ nofun
    · exact .refl
  | save ok => exact turn_save ok
  | restart migrated ok => exact absurd rfl (ha migrated ok)
  | tick t => exact .kept rfl (.inl rfl) (Nat.le_add_right _ _)

/-- Every action keeps leases as this agent makes them. -/
theorem Base.step (h : Base lab d.node) (a : EphemeralAction) :
    Base lab (ephemeralStep d a).node := by
  by_cases ha : ∃ migrated ok, a = .restart migrated ok
  · obtain ⟨migrated, ok, rfl⟩ := ha
    exact h.restart migrated ok
  · exact h.turn (h.turn_step a fun migrated ok heq => ha ⟨migrated, ok, heq⟩)

end Step

end Agent

end Twinet
