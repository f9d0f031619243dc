import Mathlib.Data.List.TakeWhile
import Twinet.Lib.Grace
import Twinet.Agent.OverlayClaims

/-!
# The Collector

Every few minutes the agent looks for what labs have left behind on the node:
claims, overlays, records, bridges. The first time it comes to such an object it
only notes the time, and an object is taken once that was a grace period ago.

A pass comes to the same objects whatever the notes say, so it is modelled in two
parts. `sweep` is the walk: the loops of the pass, with all they read, and for each
object it comes to what the pass does if the object is due. `gcOnce` goes through
that list with the notes. The locks of the agent are taken for one decision at a
time and other requests run in between, so a pass is given the agent as it is at
each of these moments.

The notes are never dropped. What that means for an object that is orphaned, then
in use or gone, and then orphaned again is the subject of the theorem: a pass keeps
to the grace period exactly if no such object comes back too early. When an object is
orphaned is said of what is on the node and of who is protected (`GcWorld.Leftover`),
not of the walk; a pass that fails has reached only a part of it (`GcWorld.reached`).

## Main definitions

* `gcProtectedLabs`, `sweep`, `gcOnce`: A pass.
* `GcWorld.protects`: Something protects a lab.
* `GcWorld.Leftover`: An object is there and unprotected, and what its removal takes.
* `GraceKept`, `ComesBack`: The property, and what breaks it.

## Theorems

* `mem_guarded_iff`: The labs a pass spares are the protected ones.
* `visits_iff`: What a pass comes to, and takes if it is due.
* `sees_iff_orphaned`: A pass that does not fail sees exactly the orphans.
* `lookup_run`: The notes are the first sightings.
* `mem_removed_iff`: What a pass takes.
* `grace_kept_iff`: When every pass keeps to the grace period.
-/

namespace Twinet

namespace Agent

open List Option

/-! ### What a pass finds -/

/-- The objects that a grace period is kept for. -/
inductive GcKey where
  | claim (vni : Nat)
  | legacy (vni : Nat)
  | multiplex (vxlan : String) (vni : Nat)
  | multiplexPair (vxlan : String)
  | records (lab : String)
  | bridge (name : String)
deriving DecidableEq, Repr

structure Orphan where
  vni : Nat
  owner : String
  ports : Nat
deriving DecidableEq, Repr

structure MultiplexOverlay where
  lab : String
  vxlan : String
  vnis : List Nat
deriving DecidableEq, Repr

structure OrphanBridge where
  name : String
  owner : String
  vni : Nat
  ports : Nat
deriving DecidableEq, Repr

inductive GcError where
  | withoutRuntime
  | listContainers
  | persistExpired
  | findOrphans
  | recheckLegacy
  | listMultiplex
  | recheckMultiplex
  | knownLabs
  | listBridges
deriving DecidableEq, Repr

/-- What of the agent protects a lab: its record, the labs it runs, the kind of the
    operation at work on each lab, and until when labs are held. -/
structure GcAgent where
  overlay : OverlayNode
  current : List String
  ops : Table String String
  holds : Table String Time

/-- The moments at which a pass takes the lock of the agent. -/
inductive GcMoment where
  | scan
  | release
  | proving (lab : String)
  | fencing (key : GcKey)
deriving DecidableEq, Repr

/-- What a pass finds and what becomes of its removals. The labs of the managed
    containers have the empty name where a container names none. The store is
    there or not, and lists its labs or fails to. The removal of empty pairs says
    which ones went, by their tunnels, and whether all went well. -/
structure GcWorld where
  now : Time
  agentAt : GcMoment → GcAgent
  containers : Except GcError (List String)
  expirySaved : Bool
  runtimeActive : String → Option Bool
  orphans : Option (List Orphan)
  orphansAfter : Nat → Option (List Orphan)
  deleteHost : Nat → Bool
  removeOverlay : Nat → Bool
  multiplex : Option (List MultiplexOverlay)
  removeEmpty : String → List String × Bool
  knownLabs : Option (Option (List String))
  garbageCollectLabRecords : String → Option Nat
  bridges : Option (List OrphanBridge)
  removeBridge : String → Bool

open GcWorld

/-! ### Protection -/

variable (a : GcAgent)

/-- A lab is at work apart from what the record says. A collection's own lease does
    not count. -/
def GcAgent.elsewhere (lab : String) : Bool :=
  a.current.contains lab || (a.ops.lookup lab).any (· ≠ "gc") ||
    (a.holds.lookup lab).any (a.overlay.node.now < ·)

def labProtectedLocked (lab : String) : Bool :=
  labProtected a.overlay (a.elsewhere lab) lab

def gcGenerationProven (lab : String) : Bool :=
  !a.current.contains lab && !(a.ops.lookup lab).any (· ≠ "gc") &&
    (a.overlay.node.server.transactions.lookup lab).isNone &&
    (a.overlay.node.server.generations.lookup lab).all (·.prepared = "")

/-- The labs nothing may be taken from, and how many reservations expired. -/
def gcProtectedLabs (p : GcWorld) : Except GcError (List String × Nat) :=
  match p.containers with
  | .error err => .error err
  | .ok labs =>
    let a := p.agentAt .scan
    let (s, changed) := expireCoordination a.overlay.node.server p.now
    if changed && !p.expirySaved then .error .persistExpired
    else .ok (labs.filter (· ≠ "") ++ a.current ++ s.transactions.keys ++ a.ops.keys ++
        (a.holds.filterMap fun _ deadline =>
          if p.now < deadline then some () else none).keys ++
        (s.mutations.filterMap fun _ lease =>
          if p.now < lease.untilAt then some () else none).keys ++
        (s.overlayClaims.filterMap fun _ claim =>
          if !claim.live && claim.untilAt != 0 && decide (p.now < claim.untilAt) then
            some claim.lab else none).values,
      a.overlay.claims.keys.length - s.overlayClaims.keys.length)

/-- Containers of a lab are there. An object without an owner is left alone. -/
def GcWorld.active (p : GcWorld) (lab : String) : Option Bool :=
  if lab = "" then some true else p.runtimeActive lab

/-! ### The walk -/

structure GcSummary where
  removedOverlays : List Nat
  removedPairs : List String
  removedBridges : List String
  removedRecords : Nat
  expiredClaims : Nat
  protectedLabs : Nat
deriving DecidableEq, Repr

/-- An object that a pass comes to: what it takes if the object is due, and what it
    then reports. -/
structure Visit where
  key : GcKey
  takes : List GcKey
  report : GcSummary → GcSummary

/-- The objects a pass comes to in turn, and why it stops early. -/
abbrev Sweep := List Visit × Option GcError

namespace Sweep

/-- One loop. What a turn of it does is an error, or the objects it comes to. -/
def each {α : Type} (f : α → Except GcError (List Visit)) : List α → Sweep
  | [] => ([], none)
  | x :: rest =>
    match f x with
    | .error err => ([], some err)
    | .ok visits => (visits ++ (each f rest).1, (each f rest).2)

/-- A loop over a list that has to be read first. -/
def listed {α : Type} (err : GcError) (list : Option (List α))
    (f : α → Except GcError (List Visit)) : Sweep :=
  match list with
  | none => ([], some err)
  | some xs => each f xs

/-- One loop after the other, unless the first one stops the pass. -/
def andThen (a b : Sweep) : Sweep :=
  match a.2 with
  | some err => (a.1, some err)
  | none => (a.1 ++ b.1, b.2)

end Sweep

open Sweep

section

variable (configured : Int) (p : GcWorld) (guarded : List String)

/-- The fence for the removal of an overlay can be had. -/
def GcWorld.fences (key : GcKey) (vni : Nat) (owner : String) : Bool :=
  let a := p.agentAt (.fencing key)
  (beginOverlayCollection a.overlay vni owner (a.elsewhere owner)).2

/-- The report of a removed overlay. -/
def reportOverlay (vni : Nat) (summary : GcSummary) : GcSummary :=
  { summary with removedOverlays := summary.removedOverlays ++ [vni] }

/-- A live claim of a lab that nothing protects. -/
def claimVisits (entry : Σ _ : Nat, OverlayClaim) : Except GcError (List Visit) :=
  if !entry.2.live || guarded.contains entry.2.lab then .ok []
  else .ok [{ key := .claim entry.1, takes := [.claim entry.1]
              report := fun summary =>
                { summary with expiredClaims := summary.expiredClaims + 1 } }]

def orphanHasPorts (orphans : List Orphan) (vni : Nat) : Bool :=
  match orphans.find? (·.vni = vni) with
  | none => false
  | some orphan => 0 < orphan.ports

/-- Remove an overlay. A stale port of ours is removed first; another port keeps
    the bridge. -/
def collectLegacyOrphan (orphan : Orphan) : Bool :=
  if 0 < orphan.ports then
    p.deleteHost orphan.vni &&
      (match p.orphansAfter orphan.vni with
        | none => false
        | some fresh => !orphanHasPorts fresh orphan.vni) &&
      p.removeOverlay orphan.vni
  else p.removeOverlay orphan.vni

/-- An overlay with a tunnel of its own. -/
def legacyVisits (orphan : Orphan) : Except GcError (List Visit) :=
  if orphan.owner ≠ "" ∧ guarded.contains orphan.owner = true then .ok []
  else match p.active orphan.owner with
    | none => .error .recheckLegacy
    | some true => .ok []
    | some false =>
      let key := GcKey.legacy orphan.vni
      let removed := p.fences key orphan.vni orphan.owner && collectLegacyOrphan p orphan
      .ok [{ key := key, takes := if removed then [key] else []
             report := if removed then reportOverlay orphan.vni else id }]

variable (overlay : MultiplexOverlay)

/-- One identifier that is bound to a shared tunnel. -/
def bindingVisit (vni : Nat) : Visit :=
  let key := GcKey.multiplex overlay.vxlan vni
  let removed := p.fences key vni overlay.lab && p.removeOverlay vni
  { key := key, takes := if removed then [key] else []
    report := if removed then reportOverlay vni else id }

/-- A shared tunnel to which nothing is bound. Its removal takes all pairs of the
    lab that are empty, and is reported if it went well. -/
def pairVisit : Visit :=
  let (removed, ok) := p.removeEmpty overlay.lab
  { key := .multiplexPair overlay.vxlan, takes := removed.map .multiplexPair
    report := fun summary => if ok then
      { summary with removedPairs := summary.removedPairs ++ removed } else summary }

def multiplexVisits : Except GcError (List Visit) :=
  if guarded.contains overlay.lab then .ok []
  else match p.active overlay.lab with
    | none => .error .recheckMultiplex
    | some true => .ok []
    | some false =>
      .ok (overlay.vnis.map (bindingVisit p overlay) ++
        if overlay.vnis.isEmpty then [pairVisit p overlay] else [])

/-- The operation lease of a lab can be had for its records, and under it nothing
    protects the lab. -/
def beginLabRecordCollection (lab : String) : Bool :=
  (a.ops.lookup lab).isNone && !labProtectedLocked a lab && gcGenerationProven a lab

/-- What is stored about a lab. -/
def recordVisits (lab : String) : Except GcError (List Visit) :=
  if guarded.contains lab || !gcGenerationProven (p.agentAt (.proving lab)) lab then .ok []
  else
    let key := GcKey.records lab
    let removed := if beginLabRecordCollection (p.agentAt (.fencing key)) lab then
      (p.garbageCollectLabRecords lab).getD 0 else 0
    .ok [{ key := key, takes := if 0 < removed then [key] else []
           report := fun summary =>
             { summary with removedRecords := summary.removedRecords + removed } }]

/-- A bridge without ports. The fence is for the identifier it is named after, if
    it is named after one. -/
def bridgeVisits (bridge : OrphanBridge) : Except GcError (List Visit) :=
  if bridge.owner ≠ "" ∧ guarded.contains bridge.owner = true then .ok []
  else if 0 < bridge.ports then .ok []
  else
    let key := GcKey.bridge bridge.name
    let removed := !labProtectedLocked (p.agentAt (.fencing key)) bridge.owner &&
      (bridge.vni == 0 || p.fences key bridge.vni bridge.owner) && p.removeBridge bridge.name
    .ok [{ key := key, takes := if removed then [key] else []
           report := fun summary => if removed then
             { summary with removedBridges := summary.removedBridges ++ [bridge.name] }
             else summary }]

/-- The records of the labs in the store, if there is a store. -/
def recordSweep : Sweep :=
  match p.knownLabs with
  | none => ([], none)
  | some labs => listed .knownLabs labs (recordVisits p guarded)

/-- The loops of a pass, for the labs that are protected. -/
def sweepGuarded : Sweep :=
  (each (claimVisits guarded) (p.agentAt .release).overlay.claims.entries).andThen
    ((listed .findOrphans p.orphans (legacyVisits p guarded)).andThen
      ((listed .listMultiplex p.multiplex (multiplexVisits p guarded)).andThen
        ((recordSweep p guarded).andThen
          (listed .listBridges p.bridges (bridgeVisits p guarded)))))

/-- Everything a pass comes to. -/
def sweep : Sweep :=
  match gcProtectedLabs p with
  | .error err => ([], some err)
  | .ok (guarded, _) => sweepGuarded p guarded

/-! ### A pass -/

def defaultGCGrace : Time := 15 * 60 * second

def gcGrace : Time :=
  if 0 < configured then configured.toNat else defaultGCGrace

/-- Whether an object is due. One that is new is noted. -/
def gcEligible (grace : Time) (seen : Table GcKey Time) (key : GcKey) (now : Time) :
    Table GcKey Time × Bool :=
  match seen.lookup key with
  | none => (seen.insert key now, false)
  | some noted => (seen, !decide (now < noted + grace))

/-- A pass at work: the notes, the report, and what was taken. -/
structure GcPass where
  seen : Table GcKey Time
  summary : GcSummary
  removed : List GcKey

def GcPass.visit (grace now : Time) (s : GcPass) (v : Visit) : GcPass :=
  match gcEligible grace s.seen v.key now with
  | (seen, false) => { s with seen := seen }
  | (seen, true) =>
    { seen := seen, summary := v.report s.summary, removed := s.removed ++ v.takes }

/-- What is known when the loops start. -/
def GcPass.start (seen : Table GcKey Time) : GcPass where
  seen := seen
  summary := match gcProtectedLabs p with
    | .error _ => ⟨[], [], [], 0, 0, 0⟩
    | .ok (guarded, expired) => ⟨[], [], [], 0, expired, guarded.dedup.length⟩
  removed := []

/-- The report of a pass that got through is in order. -/
def GcSummary.sorted (summary : GcSummary) : GcSummary :=
  { summary with
      removedOverlays := summary.removedOverlays.insertionSort (· ≤ ·)
      removedPairs := summary.removedPairs.insertionSort (· ≤ ·)
      removedBridges := summary.removedBridges.insertionSort (· ≤ ·) }

def gcOnce (seen : Table GcKey Time) (p : GcWorld) : GcPass × Option GcError :=
  let s := (sweep p).1.foldl (GcPass.visit (gcGrace configured) p.now) (GcPass.start p seen)
  match (sweep p).2 with
  | some err => (s, some err)
  | none => ({ s with summary := s.summary.sorted }, none)

/-- The passes of an agent. What is observed is what they take. -/
def gc : Machine (Table GcKey Time) GcWorld GcKey :=
  ⟨fun seen p => ((gcOnce configured seen p).1.seen, (gcOnce configured seen p).1.removed)⟩

/-- A pass comes to an object. -/
def GcWorld.sees (key : GcKey) : Bool := (sweep p).1.any (·.key = key)

/-! ### The property -/

/-- Something protects a lab: a container of it, the agent that runs it, a transaction, an
    operation, a hold, a lease or a reservation. -/
def GcWorld.protects (lab : String) : Bool :=
  let a := p.agentAt .scan
  let s := a.overlay.node.server
  (lab ≠ "" && (p.containers.toOption.getD []).contains lab) || a.current.contains lab ||
    (s.transactions.lookup lab).isSome || (a.ops.lookup lab).isSome ||
    (a.holds.lookup lab).any (p.now < ·) || (s.mutations.lookup lab).any (p.now < ·.untilAt) ||
    s.overlayClaims.any fun _ claim =>
      claim.lab = lab && !claim.live && claim.untilAt != 0 && p.now < claim.untilAt

/-- What objects there are. -/
structure GcInventory where
  claims : List (Σ _ : Nat, OverlayClaim)
  orphans : List Orphan
  overlays : List MultiplexOverlay
  labs : List String
  bridges : List OrphanBridge

/-- All that is on the node, as far as it can be listed. -/
def GcWorld.whole : GcInventory where
  claims := (p.agentAt .release).overlay.claims.entries
  orphans := p.orphans.getD []
  overlays := p.multiplex.getD []
  labs := (p.knownLabs.getD (some [])).getD []
  bridges := p.bridges.getD []

/-- The containers can be listed, and what has expired can be saved. -/
def GcWorld.scanned : Bool :=
  p.containers.isOk &&
    (!(expireCoordination (p.agentAt .scan).overlay.node.server p.now).2 || p.expirySaved)

/-- It cannot be found out whether an unprotected lab is at work. -/
def GcWorld.unclear (lab : String) : Bool := !p.protects lab && (p.active lab).isNone

/-- The loop over the overlays gets to its end, and that over the shared tunnels does. -/
def GcWorld.legacyEnds : Bool := p.orphans.isSome && p.whole.orphans.all (!p.unclear ·.owner)

def GcWorld.multiplexEnds : Bool :=
  p.legacyEnds && p.multiplex.isSome && p.whole.overlays.all (!p.unclear ·.lab)

/-- What a pass gets to before it fails, which is all if it does not. -/
def GcWorld.reached : GcInventory :=
  if !p.scanned then ⟨[], [], [], [], []⟩
  else
    { claims := p.whole.claims
      orphans := p.whole.orphans.takeWhile (!p.unclear ·.owner)
      overlays := if p.legacyEnds then p.whole.overlays.takeWhile (!p.unclear ·.lab) else []
      labs := if p.multiplexEnds then p.whole.labs else []
      bridges := if p.multiplexEnds && p.knownLabs ≠ some none then p.whole.bridges else [] }

/-- An object is there and no lab is protected that it belongs to, and its removal takes the
    given objects. -/
def GcWorld.Leftover (inv : GcInventory) (key : GcKey) (takes : List GcKey) : Prop :=
  match key with
  | .claim vni => ∃ claim, ⟨vni, claim⟩ ∈ inv.claims ∧ claim.live = true ∧
      p.protects claim.lab = false ∧ takes = [key]
  | .legacy vni => ∃ orphan ∈ inv.orphans, orphan.vni = vni ∧ p.protects orphan.owner = false ∧
      p.active orphan.owner = some false ∧
      takes = if p.fences (.legacy orphan.vni) orphan.vni orphan.owner &&
        collectLegacyOrphan p orphan then [.legacy orphan.vni] else []
  | .multiplex vxlan vni => ∃ overlay ∈ inv.overlays, vni ∈ overlay.vnis ∧ overlay.vxlan = vxlan ∧
      takes = (if p.fences (.multiplex overlay.vxlan vni) vni overlay.lab && p.removeOverlay vni
        then [.multiplex overlay.vxlan vni] else []) ∧
      p.protects overlay.lab = false ∧ p.active overlay.lab = some false
  | .multiplexPair vxlan => ∃ overlay ∈ inv.overlays, overlay.vnis = [] ∧ overlay.vxlan = vxlan ∧
      takes = (p.removeEmpty overlay.lab).1.map .multiplexPair ∧
      p.protects overlay.lab = false ∧ p.active overlay.lab = some false
  | .records lab => lab ∈ inv.labs ∧ p.protects lab = false ∧
      gcGenerationProven (p.agentAt (.proving lab)) lab = true ∧
      takes = if 0 < (if beginLabRecordCollection (p.agentAt (.fencing key)) lab then
        (p.garbageCollectLabRecords lab).getD 0 else 0) then [key] else []
  | .bridge name => ∃ bridge ∈ inv.bridges, bridge.name = name ∧ bridge.ports = 0 ∧
      (bridge.owner = "" ∨ p.protects bridge.owner = false) ∧
      takes = if !labProtectedLocked (p.agentAt (.fencing (.bridge bridge.name))) bridge.owner &&
        (bridge.vni == 0 || p.fences (.bridge bridge.name) bridge.vni bridge.owner) &&
        p.removeBridge bridge.name then [.bridge bridge.name] else []

/-- An object is orphaned where the pass gets to. -/
def GcWorld.Finds (key : GcKey) : Prop := ∃ takes, p.Leftover p.reached key takes

/-- Whatever one of the passes takes has been orphaned in every pass over a grace
    period up to that one. -/
def GraceKept (passes : List GcWorld) : Prop :=
  ∀ before p after, passes = before ++ p :: after →
    ∀ key ∈ ((gc configured).step ((gc configured).run ∅ before) p).2,
      Grace.Unbroken now Finds (gcGrace configured) p.now key (before ++ [p])

/-- In one of the passes the removal of an orphan takes an object. The orphan was first found
    a grace period ago, and since then, less than a grace period ago, a pass has found the
    object in use or not at all. -/
def ComesBack (passes : List GcWorld) : Prop :=
  ∃ before p after, passes = before ++ p :: after ∧ ∃ due takes key,
    p.Leftover p.reached due takes ∧ key ∈ takes ∧
    (∃ t, Grace.First now Finds due before t ∧ t + gcGrace configured ≤ p.now) ∧
    Grace.Interrupted now Finds (gcGrace configured) p.now key (before ++ [p])

end

/-! ### Who is protected -/

section Protection

variable {p : GcWorld} {guarded : List String} {lab : String} {expired : Nat}

theorem gcProtectedLabs_ok (hscanned : p.scanned = true) :
    ∃ guarded expired, gcProtectedLabs p = .ok (guarded, expired) := by
  simp only [scanned, Bool.and_eq_true] at hscanned
  rw [gcProtectedLabs]
  cases hcontainers : p.containers with
  | error err => simp [hcontainers, Except.isOk, Except.toBool] at hscanned
  | ok labs =>
    dsimp only
    rw [if_neg (by simpa [Decidable.or_iff_not_imp_left] using hscanned.2)]
    exact ⟨_, _, rfl⟩

theorem gcProtectedLabs_error (hscanned : p.scanned = false) :
    ∃ err, gcProtectedLabs p = .error err := by
  rw [gcProtectedLabs]
  cases hcontainers : p.containers with
  | error err => exact ⟨err, rfl⟩
  | ok labs =>
    dsimp only
    rw [if_pos (by simpa [scanned, hcontainers, Except.isOk, Except.toBool] using hscanned)]
    exact ⟨_, rfl⟩

/-- The labs a pass spares are those that are protected. -/
theorem mem_guarded_iff (h : gcProtectedLabs p = .ok (guarded, expired)) :
    lab ∈ guarded ↔ p.protects lab = true := by
  rw [gcProtectedLabs] at h
  cases hcontainers : p.containers with
  | error err =>
    rw [hcontainers] at h
    cases h
  | ok labs =>
    simp only [hcontainers] at h
    split_ifs at h
    cases h
    -- nothing that still protects a lab has expired
    have hmutations : ((((p.agentAt .scan).overlay.node.server.mutations.lookup lab).bind
        fun lease => if p.now < lease.untilAt then some lease else none).bind fun lease =>
          if p.now < lease.untilAt then some () else none).isSome =
        ((p.agentAt .scan).overlay.node.server.mutations.lookup lab).any (p.now < ·.untilAt) := by
      cases (p.agentAt .scan).overlay.node.server.mutations.lookup lab with
      | none => rfl
      | some lease => by_cases hlease : p.now < lease.untilAt <;> simp [hlease]
    have hholds : (((p.agentAt .scan).holds.lookup lab).bind fun deadline =>
        if p.now < deadline then some () else none).isSome =
        ((p.agentAt .scan).holds.lookup lab).any (p.now < ·) := by
      cases (p.agentAt .scan).holds.lookup lab with
      | none => rfl
      | some deadline => by_cases hdeadline : p.now < deadline <;> simp [hdeadline]
    have hclaim : ∀ claim : OverlayClaim,
        ((if claimExpired p.now claim then none else some claim).any fun claim =>
          (if (!claim.live && claim.untilAt != 0 && decide (p.now < claim.untilAt)) = true then
            some claim.lab else none).any (decide <| · = lab)) =
        (claim.lab = lab && !claim.live && claim.untilAt != 0 && p.now < claim.untilAt) := by
      intro claim
      rw [claimExpired]
      cases hlive : claim.live with
      | true => simp [hlive]
      | false =>
        by_cases hzero : claim.untilAt = 0
        · simp [hlive, hzero]
        · by_cases hnow : p.now < claim.untilAt <;> simp [bne, hlive, hzero, hnow]
    simp only [mem_append, mem_filter, Table.mem_keys_iff, Table.lookup_filterMap,
      expireCoordination, Table.mem_values_iff, Table.any_filterMap, hmutations, hholds, hclaim]
    simp [protects, hcontainers, Except.toOption, and_comm]

end Protection

/-! ### What a pass comes to -/

namespace Sweep

/-- The pass comes to an object whose removal takes the given ones. -/
def Meets (a : Sweep) (key : GcKey) (takes : List GcKey) : Prop :=
  ∃ v ∈ a.1, v.key = key ∧ takes = v.takes

/-- One turn of a loop does. -/
def Turn (turn : Except GcError (List Visit)) (key : GcKey) (takes : List GcKey) : Prop :=
  ∃ visits, turn = .ok visits ∧ ∃ v ∈ visits, v.key = key ∧ takes = v.takes

variable {α : Type} {f : α → Except GcError (List Visit)} {key : GcKey} {takes : List GcKey}

theorem meets_each {xs : List α} : (each f xs).Meets key takes ↔
    ∃ x ∈ xs.takeWhile fun x => (f x).isOk, Turn (f x) key takes := by
  induction xs with
  | nil => simp [each, Meets]
  | cons x xs ih =>
    rw [each]
    cases hx : f x with
    | error err => simp [Meets, hx, Except.isOk, Except.toBool]
    | ok visits =>
      have hok : (f x).isOk = true := by rw [hx]; rfl
      rw [takeWhile_cons_of_pos (p := fun x => (f x).isOk) hok]
      simp only [Meets, mem_append, or_and_right, exists_or, mem_cons, exists_eq_left]
      refine or_congr ?_ ih
      simp [Turn, hx]

theorem isNone_each {xs : List α} : (each f xs).2.isNone = xs.all fun x => (f x).isOk := by
  induction xs with
  | nil => rfl
  | cons x xs ih =>
    rw [each, all_cons, ← ih]
    cases f x <;> simp [Except.isOk, Except.toBool]

theorem meets_listed {err : GcError} {list : Option (List α)} :
    (listed err list f).Meets key takes ↔
      ∃ x ∈ (list.getD []).takeWhile fun x => (f x).isOk, Turn (f x) key takes := by
  cases list with
  | none => simp [listed, Meets]
  | some xs => exact meets_each

theorem isNone_listed {err : GcError} {list : Option (List α)} : (listed err list f).2.isNone =
    (list.isSome && (list.getD []).all fun x => (f x).isOk) := by
  cases list with
  | none => rfl
  | some xs => exact isNone_each.trans (Bool.true_and _).symm

theorem meets_andThen {a b : Sweep} : (a.andThen b).Meets key takes ↔
    a.Meets key takes ∨ (a.2.isNone = true ∧ b.Meets key takes) := by
  rw [andThen]
  cases ha : a.2 with
  | some err => simp [Meets]
  | none => simp [Meets, or_and_right, exists_or]

end Sweep

section Seen

variable {p : GcWorld} {guarded : List String} {key : GcKey} {takes : List GcKey}

theorem isOk_recordVisits (lab : String) : (recordVisits p guarded lab).isOk = true := by
  unfold recordVisits
  split_ifs <;> rfl

theorem isOk_bridgeVisits (bridge : OrphanBridge) :
    (bridgeVisits p guarded bridge).isOk = true := by
  unfold bridgeVisits
  split_ifs <;> rfl

theorem isOk_claimVisits (entry : Σ _ : Nat, OverlayClaim) :
    (claimVisits guarded entry).isOk = true := by
  unfold claimVisits
  split_ifs <;> rfl

theorem isNone_recordSweep :
    (recordSweep p guarded).2.isNone = decide (p.knownLabs ≠ some none) := by
  rw [recordSweep]
  rcases p.knownLabs with _ | _ | labs
  · rfl
  · rfl
  · simp [isNone_listed, isOk_recordVisits]

variable (hguarded : ∀ lab, lab ∈ guarded ↔ p.protects lab = true)

include hguarded

theorem not_mem_guarded (lab : String) : lab ∉ guarded ↔ p.protects lab = false := by
  rw [hguarded, Bool.not_eq_true]

theorem turn_claimVisits {entry : Σ _ : Nat, OverlayClaim} :
    Turn (claimVisits guarded entry) key takes ↔ .claim entry.1 = key ∧ entry.2.live = true ∧
      p.protects entry.2.lab = false ∧ takes = [.claim entry.1] := by
  rw [claimVisits, Turn, ← not_mem_guarded hguarded]
  by_cases hlive : entry.2.live = true
  · by_cases hlab : entry.2.lab ∈ guarded
    · simp [hlive, hlab]
    · simp [hlive, hlab]
  · simp [hlive]

theorem isOk_legacyVisits (orphan : Orphan) :
    (legacyVisits p guarded orphan).isOk = !p.unclear orphan.owner := by
  have hmem := not_mem_guarded hguarded orphan.owner
  fun_cases legacyVisits p guarded orphan with
  | case1 hlab =>
    have hprotected := (hguarded _).mp (contains_iff_mem.mp hlab.2)
    simp [unclear, hprotected, Except.isOk, Except.toBool]
  | case2 hlab hactive =>
    have howner : orphan.owner ≠ "" := fun h => by simp [active, h] at hactive
    have hunprotected := hmem.mp fun h => hlab ⟨howner, contains_iff_mem.mpr h⟩
    simp [unclear, hunprotected, hactive, Except.isOk, Except.toBool]
  | case3 _ hactive | case4 _ hactive => simp [unclear, hactive, Except.isOk, Except.toBool]

theorem turn_legacyVisits {orphan : Orphan} : Turn (legacyVisits p guarded orphan) key takes ↔
    .legacy orphan.vni = key ∧ p.protects orphan.owner = false ∧
      p.active orphan.owner = some false ∧
      takes = if p.fences (.legacy orphan.vni) orphan.vni orphan.owner &&
        collectLegacyOrphan p orphan then [.legacy orphan.vni] else [] := by
  have hmem := not_mem_guarded hguarded orphan.owner
  unfold Turn
  fun_cases legacyVisits p guarded orphan with
  | case1 hlab => simp [(hguarded _).mp (contains_iff_mem.mp hlab.2)]
  | case2 _ hactive | case3 _ hactive => simp [hactive]
  | case4 hlab hactive found removed =>
    -- an object without an owner counts as active, so this one has an owner
    have howner : orphan.owner ≠ "" := fun h => by simp [active, h] at hactive
    have hunprotected := hmem.mp fun h => hlab ⟨howner, contains_iff_mem.mpr h⟩
    simp [hunprotected, hactive, found, removed]

theorem isOk_multiplexVisits (overlay : MultiplexOverlay) :
    (multiplexVisits p guarded overlay).isOk = !p.unclear overlay.lab := by
  have hmem := not_mem_guarded hguarded overlay.lab
  fun_cases multiplexVisits p guarded overlay with
  | case1 hlab =>
    simp [unclear, (hguarded _).mp (contains_iff_mem.mp hlab), Except.isOk, Except.toBool]
  | case2 hlab hactive =>
    simp [unclear, hmem.mp (by simpa using hlab), hactive, Except.isOk, Except.toBool]
  | case3 _ hactive | case4 _ hactive => simp [unclear, hactive, Except.isOk, Except.toBool]

theorem turn_multiplexVisits {overlay : MultiplexOverlay} :
    Turn (multiplexVisits p guarded overlay) key takes ↔
      ((∃ vni ∈ overlay.vnis, .multiplex overlay.vxlan vni = key ∧
          takes = if p.fences (.multiplex overlay.vxlan vni) vni overlay.lab &&
            p.removeOverlay vni then [.multiplex overlay.vxlan vni] else []) ∨
        (overlay.vnis = [] ∧ GcKey.multiplexPair overlay.vxlan = key ∧
          takes = (p.removeEmpty overlay.lab).1.map .multiplexPair)) ∧
      p.protects overlay.lab = false ∧ p.active overlay.lab = some false := by
  have hmem := not_mem_guarded hguarded overlay.lab
  unfold Turn
  fun_cases multiplexVisits p guarded overlay with
  | case1 hlab => simp [(hguarded _).mp (contains_iff_mem.mp hlab)]
  | case2 _ hactive | case3 _ hactive => simp [hactive]
  | case4 hlab hactive =>
    have hunprotected := hmem.mp (by simpa using hlab)
    cases hvnis : overlay.vnis with
    | nil => simp [hunprotected, hactive, pairVisit]
    | cons vni vnis => simp [hunprotected, hactive, bindingVisit]

theorem turn_recordVisits {lab : String} : Turn (recordVisits p guarded lab) key takes ↔
    .records lab = key ∧ p.protects lab = false ∧
      gcGenerationProven (p.agentAt (.proving lab)) lab = true ∧
      takes = if 0 < (if beginLabRecordCollection (p.agentAt (.fencing (.records lab))) lab then
        (p.garbageCollectLabRecords lab).getD 0 else 0) then [.records lab] else [] := by
  rw [recordVisits, Turn, ← not_mem_guarded hguarded]
  by_cases hlab : lab ∈ guarded
  · simp [hlab]
  · cases hproven : gcGenerationProven (p.agentAt (.proving lab)) lab with
    | false => simp
    | true => simp [hlab]

theorem turn_bridgeVisits {bridge : OrphanBridge} :
    Turn (bridgeVisits p guarded bridge) key takes ↔
      .bridge bridge.name = key ∧ bridge.ports = 0 ∧
        (bridge.owner = "" ∨ p.protects bridge.owner = false) ∧
        takes = if !labProtectedLocked (p.agentAt (.fencing (.bridge bridge.name))) bridge.owner &&
          (bridge.vni == 0 || p.fences (.bridge bridge.name) bridge.vni bridge.owner) &&
          p.removeBridge bridge.name then [.bridge bridge.name] else [] := by
  rw [← not_mem_guarded hguarded]
  unfold Turn
  fun_cases bridgeVisits p guarded bridge with
  | case1 hlab => simp [hlab.1, contains_iff_mem.mp hlab.2]
  | case2 _ hports => simp [hports.ne']
  | case3 hlab hports found removed =>
    have hfree : bridge.owner = "" ∨ bridge.owner ∉ guarded := by
      simpa [Decidable.or_iff_not_imp_left] using hlab
    simp [Nat.eq_zero_of_not_pos hports, hfree, found, removed]

/-- The loops meet the orphans that are reached. -/
theorem meets_sweepGuarded (hscanned : p.scanned = true) :
    (sweepGuarded p guarded).Meets key takes ↔ p.Leftover p.reached key takes := by
  have htrue : ∀ {α : Type} (l : List α), l.takeWhile (fun _ => true) = l :=
    fun l => takeWhile_eq_self_iff.mpr fun _ _ => rfl
  -- an unreadable list of labs leaves the records alone
  have hlabs : (recordSweep p guarded).Meets key takes ↔
      ∃ lab ∈ p.whole.labs, Turn (recordVisits p guarded lab) key takes := by
    rw [recordSweep, whole]
    rcases p.knownLabs with _ | _ | labs
    · simp [Meets]
    · simp [meets_listed]
    · simp [meets_listed, isOk_recordVisits, htrue]
  simp only [sweepGuarded, meets_andThen, meets_each, isNone_each, meets_listed, isNone_listed,
    isNone_recordSweep, hlabs, isOk_claimVisits, isOk_bridgeVisits, isOk_legacyVisits hguarded,
    isOk_multiplexVisits hguarded, turn_claimVisits hguarded, turn_legacyVisits hguarded,
    turn_multiplexVisits hguarded, turn_recordVisits hguarded, turn_bridgeVisits hguarded, htrue]
  -- each stage is reached if no stage before it was cut short
  have hreached : p.reached = { p.whole with
      orphans := p.whole.orphans.takeWhile (!p.unclear ·.owner)
      overlays := if p.legacyEnds then p.whole.overlays.takeWhile (!p.unclear ·.lab) else []
      labs := if p.multiplexEnds then p.whole.labs else []
      bridges := if p.multiplexEnds && p.knownLabs ≠ some none then p.whole.bridges else [] } := by
    rw [reached, hscanned]
    rfl
  rw [hreached]
  cases key with
  | claim vni => simp [Leftover, whole]
  | legacy vni => simp [Leftover, whole]
  | records lab => simp [Leftover, multiplexEnds, legacyEnds, whole, and_assoc]
  | bridge name => simp [Leftover, multiplexEnds, legacyEnds, whole, and_assoc]
  | multiplex vxlan vni => simp [Leftover, legacyEnds, whole, and_assoc]
  | multiplexPair vxlan => simp [Leftover, legacyEnds, whole, and_assoc]

omit hguarded

theorem scanned_of_ok {expired : Nat} (h : gcProtectedLabs p = .ok (guarded, expired)) :
    p.scanned = true := by
  by_contra hscanned
  obtain ⟨err, herr⟩ := gcProtectedLabs_error (Bool.eq_false_of_not_eq_true hscanned)
  rw [herr] at h
  cases h

/-- What a pass comes to, and what it takes if that is due. -/
theorem visits_iff : (sweep p).Meets key takes ↔ p.Leftover p.reached key takes := by
  rw [sweep]
  cases hprotected : gcProtectedLabs p with
  | error err =>
    -- nothing is reached
    have hscanned : p.scanned = false := by
      by_contra hscanned
      obtain ⟨guarded, expired, hok⟩ := gcProtectedLabs_ok (Bool.eq_true_of_not_eq_false hscanned)
      rw [hok] at hprotected
      cases hprotected
    cases key <;> simp [Meets, Leftover, reached, hscanned]
  | ok found =>
    exact meets_sweepGuarded (fun lab => mem_guarded_iff hprotected) (scanned_of_ok hprotected)

theorem sees_iff_finds : p.sees key = true ↔ p.Finds key := by
  simp only [Finds, ← visits_iff]
  simp [sees, Meets]

end Seen

/-! ### The notes -/

theorem gcGrace_pos (configured : Int) : 0 < gcGrace configured := by
  rw [gcGrace]
  split_ifs with h
  · exact Int.lt_toNat.mpr h
  · decide

variable (seen : Table GcKey Time) (key k : GcKey)

section Notes

variable {grace now : Time} (hpos : 0 < grace)

/-- An object is due by the notes. -/
def dueBy (grace now : Time) (seen : Table GcKey Time) (key : GcKey) : Bool :=
  (seen.lookup key).any fun noted => noted + grace ≤ now

theorem lookup_gcEligible :
    (gcEligible grace seen key now).1.lookup k =
      (seen.lookup k).or (if key = k then some now else none) := by
  rw [gcEligible]
  rcases eq_or_ne key k with rfl | hk
  · cases hnoted : seen.lookup key <;> simp [hnoted]
  · cases seen.lookup key with
    | none => simp [hk, AList.lookup_insert_ne hk.symm]
    | some noted => simp [hk]

theorem gcEligible_due : (gcEligible grace seen key now).2 = dueBy grace now seen key := by
  rw [gcEligible, dueBy]
  cases seen.lookup key with
  | none => rfl
  | some noted =>
    simp [← decide_not]

variable (visits : List Visit) (s : GcPass) (v : Visit)

theorem seen_visit : (s.visit grace now v).seen = (gcEligible grace s.seen v.key now).1 := by
  rw [GcPass.visit]
  rcases gcEligible grace s.seen v.key now with ⟨seen, due⟩
  cases due <;> rfl

theorem removed_visit : (s.visit grace now v).removed =
    s.removed ++ if dueBy grace now s.seen v.key then v.takes else [] := by
  rw [GcPass.visit, ← gcEligible_due]
  rcases gcEligible grace s.seen v.key now with ⟨seen, due⟩
  cases due
  · exact (append_nil _).symm
  · rfl

include hpos in
theorem dueBy_visit (key : GcKey) :
    dueBy grace now (s.visit grace now v).seen key = dueBy grace now s.seen key := by
  rw [dueBy, dueBy, seen_visit, lookup_gcEligible]
  cases s.seen.lookup key with
  | some noted => rfl
  | none =>
    split_ifs
    · rw [Option.none_or, any_some, any_none, decide_eq_false_iff_not]
      exact Nat.not_le.mpr (Nat.lt_add_of_pos_right hpos)
    · rfl

theorem lookup_foldl_visit (k : GcKey) :
    (visits.foldl (GcPass.visit grace now) s).seen.lookup k =
      (s.seen.lookup k).or (if visits.any (·.key = k) then some now else none) := by
  induction visits generalizing s with
  | nil => simp
  | cons v visits ih =>
    rw [foldl_cons, ih, seen_visit, lookup_gcEligible, Option.or_assoc]
    by_cases hk : v.key = k
    · simp [hk]
    · simp [hk]

include hpos in
theorem removed_foldl_visit :
    (visits.foldl (GcPass.visit grace now) s).removed =
      s.removed ++ visits.flatMap fun v =>
        if dueBy grace now s.seen v.key then v.takes else [] := by
  induction visits generalizing s with
  | nil => simp
  | cons v visits ih =>
    rw [foldl_cons, ih, removed_visit, flatMap_cons, append_assoc]
    simp [dueBy_visit hpos]

end Notes

section Passes

variable {configured : Int} (p : GcWorld)

theorem gc_step : (gc configured).step seen p =
    (((sweep p).1.foldl (GcPass.visit (gcGrace configured) p.now) (GcPass.start p seen)).seen,
      ((sweep p).1.foldl (GcPass.visit (gcGrace configured) p.now)
        (GcPass.start p seen)).removed) := by
  simp only [gc, gcOnce]
  cases (sweep p).2 <;> rfl

theorem lookup_gc_step (k : GcKey) :
    ((gc configured).step seen p).1.lookup k =
      (seen.lookup k).or (if p.sees k then some p.now else none) := by
  rw [gc_step, lookup_foldl_visit]
  rfl

theorem removed_gc_step :
    ((gc configured).step seen p).2 = (sweep p).1.flatMap fun v =>
      if dueBy (gcGrace configured) p.now seen v.key then v.takes else [] := by
  rw [gc_step, removed_foldl_visit (gcGrace_pos configured)]
  rfl

/-- The notes say when an object was first found. -/
theorem lookup_run (passes : List GcWorld) (seen : Table GcKey Time) (k : GcKey) (t : Time) :
    ((gc configured).run seen passes).lookup k = some t ↔
      seen.lookup k = some t ∨ (seen.lookup k = none ∧ Grace.First now Finds k passes t) := by
  induction passes generalizing seen with
  | nil => simp [Machine.run, Grace.not_first_nil]
  | cons p passes ih =>
    rw [Machine.run, ih, lookup_gc_step, Grace.first_cons, ← sees_iff_finds]
    cases seen.lookup k <;> cases p.sees k <;> simp

/-- A pass takes what goes with the orphans that were first found a grace period
    ago. -/
theorem mem_removed_iff (before : List GcWorld) (p : GcWorld) (key : GcKey) :
    key ∈ ((gc configured).step ((gc configured).run ∅ before) p).2 ↔
      ∃ due takes, p.Leftover p.reached due takes ∧ key ∈ takes ∧
        ∃ t, Grace.First now Finds due before t ∧ t + gcGrace configured ≤ p.now := by
  have hdue : ∀ k, dueBy (gcGrace configured) p.now ((gc configured).run ∅ before) k = true ↔
      ∃ t, Grace.First now Finds k before t ∧ t + gcGrace configured ≤ p.now := by
    intro k
    simp [dueBy, Option.any_eq_true, lookup_run]
  rw [removed_gc_step, mem_flatMap]
  constructor
  · rintro ⟨v, hv, hmem⟩
    split_ifs at hmem with h
    · exact ⟨v.key, v.takes, visits_iff.mp ⟨v, hv, rfl, rfl⟩, hmem, (hdue v.key).mp h⟩
    · cases hmem
  · rintro ⟨due, takes, hleft, hmem, hfirst⟩
    obtain ⟨v, hv, rfl, rfl⟩ := visits_iff.mpr hleft
    exact ⟨v, hv, by rwa [if_pos ((hdue v.key).mpr hfirst)]⟩

end Passes

/-- The passes of an agent keep to the grace period exactly if nothing comes back
    too early. -/
theorem grace_kept_iff (configured : Int) (passes : List GcWorld) :
    GraceKept configured passes ↔ ¬ ComesBack configured passes := by
  have hlong : ∀ {before : List GcWorld} {p : GcWorld} {due : GcKey},
      (∃ t, Grace.First now Finds due before t ∧ t + gcGrace configured ≤ p.now) →
      ∃ q ∈ before ++ [p], q.now + gcGrace configured ≤ p.now := by
    rintro before p due ⟨t, ⟨a, q, c, rfl, rfl, -⟩, ht⟩
    exact ⟨q, by simp, ht⟩
  constructor
  · rintro h ⟨before, p, after, hsplit, due, takes, key, hleft, htakes, hfirst, hgap⟩
    have hmem := (mem_removed_iff before p key).mpr ⟨due, takes, hleft, htakes, hfirst⟩
    exact (Grace.unbroken_iff (hlong hfirst)).mp (h before p after hsplit key hmem) hgap
  · intro h before p after hsplit key hmem
    obtain ⟨due, takes, hleft, htakes, hfirst⟩ := (mem_removed_iff before p key).mp hmem
    refine (Grace.unbroken_iff (hlong hfirst)).mpr fun hgap => h ?_
    exact ⟨before, p, after, hsplit, due, takes, key, hleft, htakes, hfirst, hgap⟩

/-! ### An overlay that comes back -/

/-- An agent without a record, and the labs it runs. -/
def runningAgent (current : List String) : GcAgent where
  overlay := { node := boot none 0 100 true, collecting := [] }
  current := current
  ops := ∅
  holds := ∅

/-- A node with an overlay that lab `a` owns, and a pass in which every removal
    works. -/
def overlayWorld (now : Time) (current : List String) : GcWorld where
  now := now
  agentAt := fun _ => runningAgent current
  containers := .ok current
  expirySaved := true
  runtimeActive := fun _ => some false
  orphans := some [⟨7, "a", 0⟩]
  orphansAfter := fun _ => some []
  deleteHost := fun _ => true
  removeOverlay := fun _ => true
  multiplex := some []
  removeEmpty := fun _ => ([], true)
  knownLabs := none
  garbageCollectLabRecords := fun _ => none
  bridges := some []
  removeBridge := fun _ => true

example : ((gc 900).step ((gc 900).run ∅ [overlayWorld 0 []]) (overlayWorld 900 [])).2
    = [.legacy 7] := by
  decide +kernel

/-- Lab `a` is gone, is deployed again with the same identifier, and is gone again
    in the last pass. That pass takes the overlay at once. -/
theorem overlay_taken_without_grace :
    ¬ GraceKept 900 [overlayWorld 0 [], overlayWorld 300 ["a"], overlayWorld 1200 []] := by
  intro h
  have htaken : GcKey.legacy 7 ∈ ((gc 900).step
      ((gc 900).run ∅ [overlayWorld 0 [], overlayWorld 300 ["a"]]) (overlayWorld 1200 [])).2 := by
    decide +kernel
  have hkept := h [overlayWorld 0 [], overlayWorld 300 ["a"]] (overlayWorld 1200 []) [] rfl _ htaken
  have hinuse : ¬ (overlayWorld 300 ["a"]).Finds (.legacy 7) := by
    rw [← sees_iff_finds]
    decide +kernel
  refine (Grace.unbroken_iff ⟨overlayWorld 0 [], by simp, by decide +kernel⟩).mp hkept ?_
  exact ⟨[overlayWorld 0 []], overlayWorld 300 ["a"], [overlayWorld 1200 []], rfl, hinuse,
    by decide +kernel⟩

end Agent

end Twinet
