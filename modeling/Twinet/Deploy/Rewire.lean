import Twinet.Deploy.Topology

/-!
# Rewiring a Device and Its Neighbours

A rewire deletes interfaces that hold saved state, so before it deletes any it
writes a marker into every container it is about to disturb. The marker says
that the device owes a replay of its saved state, and any capture by any
process withholds the device's network state while it is there. A device loses
its marker last: after its state was replayed and the namespace it is in was
recorded.

Every command, every write of the record and every replay can fail, and a
command that is reported as failed may have run. `Faults` says what becomes of
each of them in one call.

## Main definitions

* `Faults`: What becomes of every command of a call.
* `holdRewiredState`: Mark every device, or none.
* `releaseRewired`: Let go of one device after another.
* `rewireDeviceAndPeers`: The whole call.
-/

namespace Twinet

namespace Deploy

open Function

structure NetnsIdentity where
  dev : Nat
  inode : Nat
deriving DecidableEq, Repr

/-- What becomes of a command run in a container. -/
inductive Exec where
  | done
  /-- It did not run. -/
  | failed
  /-- It ran, and the engine was told that it failed. -/
  | lost
deriving DecidableEq, Repr

/-- What becomes of an access to the record. -/
inductive Access where
  | ok
  /-- Refused for want of privilege. -/
  | denied
  | failed
deriving DecidableEq, Repr

inductive Event where
  | marked (id : String)
  /-- Interfaces of the device may be deleted from here on. -/
  | unplugged (id : String)
  | replayed (id : String)
  | recorded (id : String)
  | unmarked (id : String)
deriving DecidableEq, Repr

/-- The markers in the containers, what the engine remembers, the recorded
    namespaces, and what the call has done so far. -/
structure Owed where
  marker : String → Bool
  pendingRestore : String → Bool
  lostNamespaceState : String → Bool
  namespaces : String → Option NetnsIdentity
  log : List Event

/-- The parts of an engine a rewire depends on. -/
structure RewireEngine where
  node : String
  observationReadOnly : Bool
  supportsNetnsIdentity : Bool
  /-- No root was configured for the record, so it lies where the agent keeps
      it. -/
  defaultRoot : Bool
  unprovenNamespace : String → Bool
  containerCreatedThisPass : String → Bool

/-- What becomes of every command, record access and replay of one call, by
    device. -/
structure Faults where
  load : Access
  rewrite : Access
  /-- The question whether a marker is there is answered. -/
  probe : String → Bool
  hold : String → Exec
  takeBack : String → Exec
  /-- Links, control sidecar and rendered contract of the device are back. -/
  rewire : Bool
  reapply : String → Bool
  replay : String → Bool
  reload : String → Access
  /-- The readings of the identity, attempt by attempt. -/
  identity : String → List (Option NetnsIdentity)
  publish : String → Bool
  release : String → Exec

/-- The error of a rewire, with the devices it names. -/
inductive RewireError where
  | unrecordable
  /-- A device could not be marked; `stuck` are those whose marker could not be
      taken back. -/
  | unmarked (id : String) (stuck : List String)
  | rewiring
  | reconfiguring (failed : List String)
  | replaying (id : String)
  | unrecorded (id : String)
  | stillMarked (id : String)
deriving DecidableEq, Repr

/-- The error is an `ErrRewireNotStarted`. -/
def RewireError.notStarted : RewireError → Bool
  | unrecordable => true
  | unmarked _ _ => true
  | _ => false

/-- The markers whose failed removal the error names. -/
def RewireError.stuck : RewireError → List String
  | unmarked _ stuck => stuck
  | _ => []

def namespaceProofAttempts : Nat := 5

variable (e : RewireEngine) (f : Faults) (id : String) (s : Owed)

def restoreIsPending : Bool :=
  s.pendingRestore id || (f.probe id && s.marker id)

/-- The marker of a device is written, or removed. -/
def Owed.setMarker (id : String) (value : Bool) : Owed :=
  { s with
    marker := update s.marker id value
    log := s.log ++ [if value then .marked id else .unmarked id] }

def Owed.setPending (id : String) (value : Bool) : Owed :=
  { s with pendingRestore := update s.pendingRestore id value }

def Owed.setLost (id : String) (value : Bool) : Owed :=
  { s with lostNamespaceState := update s.lostNamespaceState id value }

def Owed.note (e : Event) : Owed := { s with log := s.log ++ [e] }

/-- A command that writes or removes the marker of a device, and the engine's
    own note when it is told that the command worked. -/
def setMarkerBy (exec : Exec) (id : String) (value : Bool) (s : Owed) : Owed × Bool :=
  match exec with
  | .done => ((s.setMarker id value).setPending id value, true)
  | .failed => (s, false)
  | .lost => (s.setMarker id value, false)

def holdNamespaceState : Owed × Bool :=
  setMarkerBy (f.hold id) id true s

/-- Take back the markers a refused hold wrote, and name those that could not
    be taken back. -/
def releaseHeldState (f : Faults) : List String → Owed → Owed × List String
  | [], s => (s, [])
  | id :: rest, s =>
    let (s', ok) := setMarkerBy (f.takeBack id) id false s
    let (s'', failures) := releaseHeldState f rest s'
    (s'', if ok then failures else id :: failures)

/-- Mark every device, or none: the markers written are those of devices that
    were not known to carry one. -/
def holdRewiredState (f : Faults) (written : List String) :
    List String → Owed → Owed × Option RewireError
  | [], s => (s, none)
  | id :: rest, s =>
    let already := restoreIsPending f id s
    let (s', ok) := holdNamespaceState f id s
    if ok then holdRewiredState f (if already then written else written ++ [id]) rest s'
    else
      let (s'', stuck) := releaseHeldState f written s'
      (s'', some (.unmarked id stuck))

/-- The record needs no writing on this engine. -/
def RewireEngine.recordsNothing : Bool :=
  e.observationReadOnly || !e.supportsNetnsIdentity

/-- An access that failed only because no agent runs here. -/
def RewireEngine.belongsToNoAgent (access : Access) : Bool :=
  e.defaultRoot && access == .denied

/-- The record can be read and written, or this engine keeps none. -/
def checkNamespaceRecordable : Bool :=
  if e.recordsNothing then true
  else if f.load ≠ .ok then e.belongsToNoAgent f.load
  else if f.rewrite ≠ .ok then e.belongsToNoAgent f.rewrite
  else true

def RewireEngine.namespaceUnproven : Bool :=
  e.unprovenNamespace id && !e.containerCreatedThisPass id

/-- Record the namespace a device is in, unless what is in it is in doubt. -/
def recordDeviceNamespace : Owed × Bool :=
  if !e.supportsNetnsIdentity || e.namespaceUnproven id then (s, true)
  else
    match ((f.identity id).take namespaceProofAttempts).findSome? (·) with
    | none => (s, false)
    | some identity =>
      if f.publish id then
        ({ s with namespaces := update s.namespaces id (some identity) }.note
          (.recorded id), true)
      else (s, false)

def recordRewiredNamespace : Owed × Bool :=
  if e.recordsNothing then (s, true)
  else if f.reload id ≠ .ok then (s, e.belongsToNoAgent (f.reload id))
  else recordDeviceNamespace e f id s

def releaseNamespaceState : Owed × Bool :=
  setMarkerBy (f.release id) id false s

/-- Let go of one device after another: its state is back, the namespace is
    recorded, the marker is gone. The first failure stops. -/
def releaseRewired (e : RewireEngine) (f : Faults) :
    List String → Owed → Owed × Option RewireError
  | [], s => (s, none)
  | id :: rest, s =>
    if !f.replay id then (s, some (.replaying id))
    else
      let (s', recorded) := recordRewiredNamespace e f id (s.note (.replayed id))
      if !recorded then (s', some (.unrecorded id))
      else
        let (s'', released) := releaseNamespaceState f id s'
        if !released then (s'', some (.stillMarked id))
        else releaseRewired e f rest (s''.setLost id false)

/-- The second half of a rewire, called with a replay function. -/
def restoreRewiredPeers (d : String) (peers : List String) (s : Owed) : Owed × Option RewireError :=
  if peers.any (!f.reapply ·) then (s, some (.reconfiguring (peers.filter (!f.reapply ·))))
  else releaseRewired e f (d :: peers) s

def markAllLost (ids : List String) (s : Owed) : Owed :=
  ids.foldl (fun s id => s.setLost id true) s

/-- Rebuild the links of one device and put back every neighbour whose end was
    rebuilt with them. The log is that of this call. -/
def rewireDeviceAndPeers (top : Topology) (d : Device) (s : Owed) : Owed × Option RewireError :=
  let s := { s with log := [] }
  let peers := (localRewirePeers top e.node d).map (·.id)
  if !checkNamespaceRecordable e f then (s, some .unrecordable)
  else
    match holdRewiredState f [] (d.id :: peers) s with
    | (s', some err) => (s', some err)
    | (s', none) =>
      let s'' := (markAllLost (d.id :: peers) s').note (.unplugged d.id)
      if !f.rewire then (s'', some .rewiring)
      else restoreRewiredPeers e f d.id peers s''

end Deploy

end Twinet
