import Twinet.Deploy.Build

/-!
# Running a Deployment Plan

What the effects of a plan do to the node and to its record, and what is left
of them when the agent dies: containers, overlays, markers and the record on
disk survive, the memory of the engine does not.

A task that is started is in a new namespace, so every cable of its device is
gone, and with it the other end of each. A record is written as a whole from
the memory of the pass, so whatever the pass has taken note of is on disk with
the next mark.

## Main definitions

* `applyEffect`: What an effect does to the node and the record.
* `runPlan`: The state after a history.
* `crash`: What survives the agent.
-/

namespace Twinet

namespace Deploy

open Function

section

variable (w : World) (t : Record) (id : String)

/-- A mark: the record in memory changes, and all of it is written to disk. -/
def World.mark (update : Record → Record) : World :=
  { w with tracker := update w.tracker, disk := update w.tracker }

def Record.setDevice (value : DeviceRecord) : Record :=
  { t with devices := update t.devices id (some value) }

def Record.setLink (id hash : String) : Record :=
  { t with links := update t.links id (some hash) }

def Record.setNamespace (value : NetnsIdentity) : Record :=
  { t with namespaces := update t.namespaces id (some value) }

def World.setContainer (c : Option Container) : World :=
  { w with container := update w.container id c }

def World.setControl (c : Option Container) : World :=
  { w with control := update w.control id c }

end

section Effects

variable (e : Engine) (top : Topology) (env : RunEnv) (d : Device) (w : World)

/-- The engine has saved state of the device that it may put back. -/
def restores : Bool := e.hasStore && studentOwned top d && !e.writesReference

/-- Note that the device owes a replay, in memory and as well as it goes in the
    container. -/
def restoreIfNeeded : World :=
  if restores e top d then
    { w with
      pendingRestore := update w.pendingRestore d.id true
      marker := if env.marks d.id then update w.marker d.id true else w.marker }
  else w

/-- The container is there and must not be kept. -/
def mustReplace (c : Container) : Bool :=
  c.state != .absent && (c.specLabel != (e.desired d).specHash || forcedRecreate e d)

/-- Save what is in the container, and remove it with its sidecar. The marker
    goes with its filesystem. -/
def applyReplace : World :=
  if (w.container d.id).any (mustReplace e d) then
    { w with
      container := update w.container d.id none
      control := if (e.desired d).controlHash.isSome then update w.control d.id none
        else w.control
      marker := update w.marker d.id false
      lostNamespaceState := update w.lostNamespaceState d.id
        (w.lostNamespaceState d.id || env.captureFindsLost d.id) }
  else w

/-- A container fresh from its image. -/
def newContainer : Container :=
  { state := .created, specLabel := (e.desired d).specHash, contractLabel := e.contract
    hashLabel := top.hash, netns := ⟨0, 0⟩ }

def applyCreate : World :=
  if (w.container d.id).any (·.state != .absent) then w
  else
    let w := w.setContainer d.id (some (newContainer e top d))
    { w with createdContainers := update w.createdContainers d.id true }

/-- Start a task that is not running, in a new namespace. -/
def applyStart : World :=
  match w.container d.id with
  | some c =>
    if c.state.joinable then w
    else
      restoreIfNeeded e top env d
        (w.setContainer d.id (some { c with state := .running, netns := env.born d.id }))
  | none => w

/-- The sidecar can stay: it is the wanted one, and in its router's namespace. -/
def keepsControl (hash : String) (primary : Option Container) (c : Container) : Bool :=
  c.specLabel == hash && c.state.joinable && primary.any (fun p => p.netns.sameAs c.netns)

/-- A sidecar fresh from its image, in the namespace of its router. -/
def newControl (hash : String) (netns : NetnsIdentity) : Container :=
  { state := .running, specLabel := hash, contractLabel := e.contract, hashLabel := top.hash
    netns := netns }

/-- Keep the sidecar, or put a new one into the router's namespace. -/
def applyControl : World :=
  match (e.desired d).controlHash, w.container d.id with
  | some hash, some primary =>
    if (w.control d.id).any (keepsControl hash (some primary)) then w
    else w.setControl d.id (some (newControl e top hash primary.netns))
  | _, _ => w

def restorePending : Bool :=
  w.pendingRestore d.id || (env.probe d.id && w.marker d.id)

/-- A replay takes place when the configure step gets to it. -/
def replays : Bool :=
  (e.restoreStudentState && e.shouldForceStudentReset d && studentOwned top d) ||
    (restores e top d && restorePending env d w)

def applyReplay : World :=
  if replays e top env d w then
    { w with
      pendingRestore := update w.pendingRestore d.id false
      marker := if env.marks d.id then update w.marker d.id false else w.marker
      lostNamespaceState := update w.lostNamespaceState d.id false }
  else { w with lostNamespaceState := update w.lostNamespaceState d.id false }

/-- The namespace of the device is in doubt in this pass. -/
def World.unproven (id : String) : Bool :=
  w.unprovenNamespace id && !w.createdContainers id

def applyRecordNamespace : World :=
  match w.container d.id with
  | some c =>
    if e.supportsNetnsIdentity && !w.unproven d.id then
      w.mark (·.setNamespace d.id c.netns)
    else w
  | none => w

/-- Wire a link. A refused overlay is left as it is, and the step fails. -/
def applyWire (l : Link) (w : World) : World :=
  { w with
    overlay := if l.crossNode then (wireOverlay e l w.overlay).getD w.overlay else w.overlay }

def applyEffect : Effect → World → World
  | .pull _, w => w
  | .verify _, w => w
  | .replace d, w => applyReplace e env d w
  | .create d, w => applyCreate e top d w
  | .start d, w => applyStart e top env d w
  | .control d, w => applyControl e top d w
  | .markCreated d, w => w.mark (·.setDevice d.id
      { specHash := (e.desired d).specHash, configHash := "", fileHash := "", commandHash := ""
        readyHash := "" })
  | .wire l, w => applyWire e l w
  | .markLink l, w => w.mark (·.setLink l.id (e.wireHash l))
  | .configure _, w => w
  | .owe d, w => if w.lostNamespaceState d.id then restoreIfNeeded e top env d w else w
  | .replay d, w => applyReplay e top env d w
  | .recordNamespace d, w => applyRecordNamespace e d w
  | .markConfigured d, w => w.mark (·.setDevice d.id { fullRecord e d with readyHash := "" })
  | .markReady d, w => w.mark (·.setDevice d.id (fullRecord e d))
  | .markMode, w => w.mark fun t => { t with mode := e.modeKey }

/-- The state after a history of a plan that started in `w`. -/
def runPlan (h : List (Step × Effect)) : World :=
  Schedule.run (applyEffect e top env) w h

end Effects

/-- What survives the agent: not the memory of its engine. -/
def crash (w : World) : World :=
  { w with
    tracker := w.disk
    pendingRestore := fun _ => false
    lostNamespaceState := fun _ => false
    unprovenNamespace := fun _ => false
    createdContainers := fun _ => false }

end Deploy

end Twinet
