import Mathlib.Data.List.Dedup
import Twinet.Deploy.Overlay
import Twinet.Lib.Schedule

/-!
# Planning a Deployment

How a deployment decides what to do on a node. Each device is compared with its
container and its record; a device found in another namespace than the one its
state was configured in is repaired together with the devices its cables lead
to; and what is dirty becomes a plan of steps that wait for each other.

A device without a record is taken as configured when its container carries the
hash of the very topology that is deployed, and a link without one as wired.

## Main definitions

* `observeDevice`: The comparison of a device with its container and its record.
* `diffCreate`, `diffConfigure`, `diffReady`, `diffWire`: What is dirty.
* `dirtyPlan`: The steps, what they need and what they do.
* `buildContext`: The plan, and the state it starts to run in.

## Theorems

* `create_mem_planSteps`, `wire_mem_planSteps`, `configure_mem_planSteps`,
  `ready_mem_planSteps`, `recordMode_mem_planSteps`: When a step is planned.
* `planSteps_eq_nil_iff`: When a plan is empty.
* `dirtyPlan_runs`: Every plan can be carried out.
* `buildContext_of_mem`: The plan of a node with devices.
-/

namespace Twinet

namespace Deploy

open List

/-- What one step of a plan is. -/
inductive Step where
  | image (ref : String)
  | verifyImage (ref : String)
  | create (d : Device)
  | wire (l : Link)
  | configure (d : Device)
  | ready (d : Device)
  | recordMode
deriving DecidableEq, Repr

open Step

/-- One effect of a step, on the node or on the record. -/
inductive Effect where
  | pull (ref : String)
  | verify (ref : String)
  | replace (d : Device)
  | create (d : Device)
  | start (d : Device)
  | control (d : Device)
  | markCreated (d : Device)
  | wire (l : Link)
  | markLink (l : Link)
  | configure (d : Device)
  | owe (d : Device)
  | replay (d : Device)
  | recordNamespace (d : Device)
  | markConfigured (d : Device)
  | markReady (d : Device)
  | markMode
deriving DecidableEq, Repr

/-- The flags of one device. -/
structure Observation where
  create : Bool
  recreate : Bool
  configure : Bool
  ready : Bool
  capture : Bool
  semantic : Bool
deriving DecidableEq, Repr

section Observe

variable (e : Engine) (top : Topology) (r : Readings) (w : World)

/-- A container the runtime lists as one that can be entered. -/
def joinable (c : Option Container) : Bool := c.any (·.state.joinable)

variable (l : Link) (d : Device)

/-- The device is rebuilt whatever its container is. -/
def forcedRecreate : Bool := e.recoveryCompatibility && d.kind == .service

/-- The container is missing, or was made from something else. -/
def primaryRecreate : Bool :=
  (match w.container d.id with
    | none => true
    | some c => c.state == .absent || c.specLabel != (e.desired d).specHash ||
        c.contractLabel != e.contract) || forcedRecreate e d

/-- The control sidecar is missing, stopped or made from something else. -/
def controlDirty : Bool :=
  match (e.desired d).controlHash with
  | none => false
  | some hash =>
    match w.control d.id with
    | none => true
    | some c => !c.state.joinable || c.specLabel != hash || c.contractLabel != e.contract

def specDirty : Bool :=
  primaryRecreate e w d || !joinable (w.container d.id) || controlDirty e w d

/-- The record of a device that is fully deployed. -/
def fullRecord : DeviceRecord :=
  { specHash := (e.desired d).specHash, configHash := (e.desired d).configHash
    fileHash := (e.desired d).fileHash, commandHash := (e.desired d).commandHash
    readyHash := (e.desired d).readyHash }

def modeDirty : Bool := e.modeKey != "" && w.disk.mode != e.modeKey

/-- A device nothing is recorded about, whose container was made for this very
    topology. -/
def bootstraps : Bool :=
  !specDirty e w d && (w.container d.id).any (·.hashLabel == top.hash) && decide (0 < d.asn)

/-- The record of a device as the observation takes it. -/
def previousRecord : Option DeviceRecord :=
  match w.disk.devices d.id with
  | some previous => some previous
  | none => if bootstraps e top w d && !modeDirty e w then some (fullRecord e d) else none

/-- The recorded configuration is not the one rendered now. -/
def configDiffers (previous : DeviceRecord) : Bool :=
  previous.configHash != (e.desired d).configHash || previous.fileHash != (e.desired d).fileHash ||
    previous.commandHash != (e.desired d).commandHash

def observedConfigure : Bool :=
  e.renders && (modeDirty e w || specDirty e w d ||
    match previousRecord e top w d with
    | none => true
    | some previous => configDiffers e d previous)

def observeDevice : Observation :=
  let dirty := specDirty e w d
  let configure := observedConfigure e top w d
  { create := dirty
    recreate := dirty && primaryRecreate e w d
    configure := configure
    ready := e.renders && e.hasReady d && (modeDirty e w || dirty || configure ||
      match previousRecord e top w d with
      | none => true
      | some previous => previous.readyHash != (e.desired d).readyHash)
    capture := (dirty || configure) && studentOwned top d
    semantic := e.probesSemantics && !dirty }

/-- The sidecar of a clean device is not in its router's namespace, or it cannot
    be told. -/
def controlSplit : Bool :=
  !specDirty e w d && (e.desired d).controlHash.isSome &&
    match w.container d.id, w.control d.id with
    | some c, some k =>
      !r.readable d.id || !r.controlReadable d.id || !c.netns.sameAs k.netns
    | _, _ => false

/-- The device is running in another namespace than the recorded one, or it
    cannot be told. -/
def namespaceReplaced : Bool :=
  e.supportsNetnsIdentity &&
    match w.disk.namespaces d.id, w.container d.id with
    | some recorded, some c =>
      recorded.known && c.state.joinable && (!r.readable d.id || !c.netns.sameAs recorded)
    | _, _ => false

def replaced : Bool := controlSplit e r w d || namespaceReplaced e r w d

/-- A device of this node at the other end of a local cable. -/
def localNeighbours (x : Device) : Bool :=
  top.links.any (fun l => l.touches d && !l.crossNode && (l.other d).id == x.id &&
    (l.other d).node == e.node)

/-- The state in the device's namespace is gone: with its own namespace, or with
    the namespace at the other end of one of its cables. -/
def lost : Bool :=
  replaced e r w d ||
    (top.devicesOnNode e.node).any (fun y => replaced e r w y && localNeighbours e top y d)

/-- The probe of a device that is probed reports a difference. -/
def semanticDirty : Bool :=
  (observeDevice e top w d).semantic && !lost e top r w d && !r.semanticOk d

def diffCreate : Bool := (observeDevice e top w d).create || replaced e r w d

def diffConfigure : Bool :=
  (observeDevice e top w d).configure || lost e top r w d || semanticDirty e top r w d

def diffReady : Bool :=
  (observeDevice e top w d).ready ||
    ((lost e top r w d || semanticDirty e top r w d) && e.renders && e.hasReady d)

def diffCapture : Bool :=
  (observeDevice e top w d).capture ||
    ((lost e top r w d || semanticDirty e top r w d) && studentOwned top d)

/-- The containers at the ends on this node were made for this topology. -/
def linkLabelHashMatches : Bool :=
  [l.a, l.b].all (fun d => d.node != e.node ||
    (w.container d.id).any (fun c => c.hashLabel == top.hash && c.state.joinable))

def endpointCreate : Bool :=
  [l.a, l.b].any (fun d => d.node == e.node && diffCreate e top r w d)

/-- The record of a link as the observation takes it. -/
def previousLink : Option String :=
  match w.disk.links l.id with
  | some hash => some hash
  | none =>
    if !endpointCreate e top r w l && linkLabelHashMatches e top w l then some (e.wireHash l)
    else none

def diffWire : Bool :=
  l.onNode e.node && (modeDirty e w || endpointCreate e top r w l ||
    previousLink e top r w l != some (e.wireHash l) ||
    (l.crossNode && dirtyOverlayBindings e top w.overlay l.vni))

/-- A device without a recorded namespace that the observation has to settle. -/
def unsettledNamespace : Bool :=
  e.supportsNetnsIdentity && !e.observationReadOnly && !lost e top r w d &&
    !(w.disk.namespaces d.id).any (·.known)

/-- A device that can be given the namespace it is in as its baseline. -/
def clean : Bool :=
  !diffCreate e top r w d && !diffConfigure e top r w d && !diffReady e top r w d

/-- The namespace of the device is shown to hold what it should. -/
def provenNamespace : Bool :=
  !semanticDirty e top r w d && joinable (w.container d.id) && r.proven d

def baselined : Bool :=
  unsettledNamespace e top r w d && clean e top r w d && provenNamespace e top r w d

def markedUnproven : Bool :=
  unsettledNamespace e top r w d && (clean e top r w d || diffCapture e top r w d) &&
    !provenNamespace e top r w d

/-- The flags of the device with this identity. -/
def flagOf (flag : Device → Bool) (id : String) : Bool :=
  (top.devicesOnNode e.node).any (fun d => d.id == id && flag d)

/-- The record after an observation: what was bootstrapped, without devices and
    links that are not on this node. -/
def observedRecord : Record :=
  { mode := w.disk.mode
    devices := fun id => ((top.devicesOnNode e.node).find? (·.id == id)).bind
      (previousRecord e top w)
    links := fun id => (top.links.find? (fun l => l.id == id && l.onNode e.node)).bind
      (previousLink e top r w)
    namespaces := fun id => ((top.devicesOnNode e.node).find? (·.id == id)).bind fun d =>
      match w.disk.namespaces id with
      | some recorded => some recorded
      | none => if baselined e top r w d then (w.container id).map (·.netns) else none }

/-- The state a plan starts to run in. -/
def observeNode : World :=
  { w with
    tracker := observedRecord e top r w
    disk := if e.observationReadOnly then w.disk else observedRecord e top r w
    lostNamespaceState := flagOf e top (lost e top r w)
    unprovenNamespace := flagOf e top (markedUnproven e top r w)
    createdContainers := fun _ => false }

end Observe

/-! ### The plan -/

/-- What a step does, in order. -/
def Step.effects : Step → List Effect
  | image ref => [.pull ref]
  | verifyImage ref => [.verify ref]
  | create d => [.replace d, .create d, .start d, .control d, .markCreated d]
  | wire l => [.wire l, .markLink l]
  | configure d =>
    [.configure d, .owe d, .replay d, .recordNamespace d, .markConfigured d]
  | ready d => [.markReady d]
  | recordMode => [.markMode]

section Plan

variable (e : Engine) (top : Topology) (r : Readings) (w : World)

/-- The devices a flag holds of, in the order of the plan. -/
def flagged (flag : Device → Bool) : List Device := (top.devicesOnNode e.node).filter flag

/-- The images to pull, each once and in order. -/
def planImages : List String :=
  (((flagged e top (diffCreate e top r w)).map (·.image)).dedup).insertionSort (· ≤ ·)

/-- The steps that do the work; the mode is recorded after all of them. -/
def workSteps : List Step :=
  (planImages e top r w).flatMap (fun ref => [.image ref, .verifyImage ref]) ++
    (flagged e top (diffCreate e top r w)).map .create ++
    (top.links.filter (diffWire e top r w)).map .wire ++
    (flagged e top (diffConfigure e top r w)).map .configure ++
    (if e.renders then
      (flagged e top (fun d => diffReady e top r w d && e.hasReady d)).map .ready else [])

def planSteps : List Step :=
  workSteps e top r w ++ if modeDirty e w then [.recordMode] else []

def Step.needs : Step → List Step
  | image _ => []
  | verifyImage ref => [image ref]
  | create d => [verifyImage d.image]
  | wire l => ([l.a, l.b].filter (fun d => d.node == e.node && diffCreate e top r w d)).map create
  | configure d =>
    (if diffCreate e top r w d then [create d] else []) ++
      ((top.links.filter (fun l => l.touches d && diffWire e top r w l)).map wire)
  | ready d => if diffConfigure e top r w d then [configure d] else []
  | recordMode => workSteps e top r w

/-- The identity of a sidecar's namespace can be proved wherever one is
    compared. -/
def controlsProvable : Bool :=
  e.supportsNetnsIdentity || (top.devicesOnNode e.node).all (fun d =>
    specDirty e w d || (e.desired d).controlHash.isNone)

/-- The plan of what is dirty. -/
def dirtyPlan : Schedule Step Effect :=
  { jobs := planSteps e top r w, needs := needs e top r w, effects := effects }

/-- The plan of a deployment, and the state it starts to run in. A device to be
    created needs an image. -/
def buildContext : Option (Schedule Step Effect × World) :=
  if (top.devicesOnNode e.node).isEmpty then
    some ({ jobs := [], needs := fun _ => [], effects := effects }, w)
  else if !controlsProvable e top w then none
  else if (flagged e top (diffCreate e top r w)).any (·.image == "") then none
  else some (dirtyPlan e top r w, observeNode e top r w)

end Plan

/-! ### What is in a plan -/

section Members

variable {e : Engine} {top : Topology} {r : Readings} {w : World} {d : Device}
  {flag : Device → Bool}

theorem mem_flagged : d ∈ flagged e top flag ↔ d ∈ top.devicesOnNode e.node ∧ flag d = true := by
  simp [flagged]

theorem end_mem_devicesOnNode {l : Link} (hl : l ∈ top.links) (hd : d ∈ [l.a, l.b])
    (hnode : d.node = e.node) : d ∈ top.devicesOnNode e.node := by
  refine Topology.mem_devicesOnNode.mpr ⟨?_, hnode⟩
  rcases mem_pair.mp hd with rfl | rfl
  · exact (top.endpoints l hl).1
  · exact (top.endpoints l hl).2

theorem flagged_eq_nil (h : ∀ d ∈ top.devicesOnNode e.node, flag d = false) :
    flagged e top flag = [] :=
  filter_eq_nil_iff.mpr fun d hd => by simp [h d hd]

theorem flagOf_eq (hd : d ∈ top.devicesOnNode e.node) : flagOf e top flag d.id = flag d := by
  have hiff : flagOf e top flag d.id = true ↔ flag d = true := by
    simp only [flagOf, any_eq_true, Bool.and_eq_true, beq_iff_eq]
    constructor
    · rintro ⟨d', hd', hid, hflag⟩
      have heq := Topology.eq_of_id (Topology.mem_devicesOnNode.mp hd').1
        (Topology.mem_devicesOnNode.mp hd).1 hid
      rwa [← heq]
    · exact fun hflag => ⟨d, hd, rfl, hflag⟩
  exact Bool.eq_iff_iff.mpr hiff

/-- A step is planned where its stage says so. -/
theorem mem_planSteps {j : Step} : j ∈ planSteps e top r w ↔
    (∃ ref ∈ planImages e top r w, j = .image ref ∨ j = .verifyImage ref) ∨
    (∃ d ∈ flagged e top (diffCreate e top r w), j = .create d) ∨
    (∃ l ∈ top.links, diffWire e top r w l = true ∧ j = .wire l) ∨
    (∃ d ∈ flagged e top (diffConfigure e top r w), j = .configure d) ∨
    (e.renders = true ∧
      ∃ d ∈ flagged e top (fun d => diffReady e top r w d && e.hasReady d), j = .ready d) ∨
    modeDirty e w = true ∧ j = .recordMode := by
  simp only [planSteps, workSteps, mem_append, mem_flatMap, mem_map, mem_filter, mem_cons,
    mem_ite_nil_right, not_mem_nil, or_false, or_assoc, and_assoc, eq_comm]

/-- A container is planned where its device is dirty. -/
theorem create_mem_planSteps :
    create d ∈ planSteps e top r w ↔
      d ∈ top.devicesOnNode e.node ∧ diffCreate e top r w d = true := by
  simp [mem_planSteps, mem_flagged]

/-- A link is planned where it is dirty. -/
theorem wire_mem_planSteps {l : Link} :
    wire l ∈ planSteps e top r w ↔ l ∈ top.links ∧ diffWire e top r w l = true := by
  simp [mem_planSteps]

/-- A configuration is planned where its device needs one. -/
theorem configure_mem_planSteps :
    configure d ∈ planSteps e top r w ↔
      d ∈ top.devicesOnNode e.node ∧ diffConfigure e top r w d = true := by
  simp [mem_planSteps, mem_flagged]

/-- A check is planned where a renderer has one. -/
theorem ready_mem_planSteps :
    ready d ∈ planSteps e top r w ↔
      d ∈ top.devicesOnNode e.node ∧ e.renders = true ∧ diffReady e top r w d = true ∧
        e.hasReady d = true := by
  simp [mem_planSteps, mem_flagged, and_left_comm]

/-- The mode is recorded where it changes. -/
theorem recordMode_mem_planSteps :
    recordMode ∈ planSteps e top r w ↔ modeDirty e w = true := by
  simp [mem_planSteps]

/-- The images come first, then containers, cables, configuration and checks. -/
def Step.rank : Step → ℕ
  | image _ => 0
  | verifyImage _ => 1
  | create _ => 2
  | wire _ => 3
  | configure _ => 4
  | ready _ => 5
  | recordMode => 6

theorem image_mem_planSteps {ref : String} :
    (image ref ∈ planSteps e top r w ↔ ref ∈ planImages e top r w) ∧
      (verifyImage ref ∈ planSteps e top r w ↔ ref ∈ planImages e top r w) := by
  simp [mem_planSteps]

theorem image_mem_planImages (hd : d ∈ top.devicesOnNode e.node)
    (hc : diffCreate e top r w d = true) : d.image ∈ planImages e top r w := by
  rw [planImages, mem_insertionSort, mem_dedup]
  exact mem_map_of_mem (mem_flagged.mpr ⟨hd, hc⟩)

/-- A plan is empty if nothing is dirty. -/
theorem planSteps_eq_nil_iff :
    planSteps e top r w = [] ↔
      (∀ d ∈ top.devicesOnNode e.node, diffCreate e top r w d = false ∧
        diffConfigure e top r w d = false ∧
        (e.renders && diffReady e top r w d && e.hasReady d) = false) ∧
      (∀ l ∈ top.links, diffWire e top r w l = false) ∧ modeDirty e w = false := by
  simp only [planSteps, workSteps, flagged, append_eq_nil_iff, map_eq_nil_iff, flatMap_eq_nil_iff,
    filter_eq_nil_iff, ite_eq_right_iff, cons_ne_nil, imp_false, and_assoc, Bool.not_eq_true]
  constructor
  · rintro ⟨-, hcreate, hwire, hconf, hready, hmode⟩
    refine ⟨fun d hd => ⟨hcreate d hd, hconf d hd, ?_⟩, hwire, hmode⟩
    cases hr : e.renders with
    | false => rfl
    | true => simpa using hready hr d hd
  · rintro ⟨hdev, hwire, hmode⟩
    have hcreate : ∀ d ∈ top.devicesOnNode e.node, diffCreate e top r w d = false :=
      fun d hd => (hdev d hd).1
    -- images are pulled for the devices to be created and for no others
    have himages : planImages e top r w = [] := by simp [planImages, flagged_eq_nil hcreate]
    refine ⟨by simp [himages], hcreate, hwire, fun d hd => (hdev d hd).2.1,
      fun hr d hd => ?_, hmode⟩
    simpa [hr] using (hdev d hd).2.2

/-- No step of a plan waits for a later one. -/
theorem dirtyPlan_runs (e : Engine) (top : Topology) (r : Readings) (w : World) :
    ∃ h, Schedule.Complete (dirtyPlan e top r w) h := by
  -- what a step needs is planned and of a lower rank
  refine Schedule.exists_complete rank fun j hj n hn => ?_
  have hjob : j ∈ planSteps e top r w := hj
  have hneed : n ∈ needs e top r w j := hn
  change n ∈ planSteps e top r w ∧ _
  cases j with
  | image ref => simp [needs] at hneed
  | verifyImage ref =>
    obtain rfl := mem_singleton.mp hneed
    exact ⟨image_mem_planSteps.1.mpr (image_mem_planSteps.2.mp hjob), by simp [rank]⟩
  | create d =>
    obtain rfl := mem_singleton.mp hneed
    obtain ⟨hd, hc⟩ := create_mem_planSteps.mp hjob
    exact ⟨image_mem_planSteps.2.mpr (image_mem_planImages hd hc), by simp [rank]⟩
  | wire l =>
    obtain ⟨hl, -⟩ := wire_mem_planSteps.mp hjob
    simp only [needs, mem_map, mem_filter, Bool.and_eq_true, beq_iff_eq] at hneed
    obtain ⟨d, ⟨hd, hnode, hc⟩, rfl⟩ := hneed
    exact ⟨create_mem_planSteps.mpr ⟨end_mem_devicesOnNode hl hd hnode, hc⟩, by simp [rank]⟩
  | configure d =>
    obtain ⟨hd, -⟩ := configure_mem_planSteps.mp hjob
    rcases mem_append.mp hneed with hneed | hneed
    · split_ifs at hneed with hc
      · obtain rfl := mem_singleton.mp hneed
        exact ⟨create_mem_planSteps.mpr ⟨hd, hc⟩, by simp [rank]⟩
      · simp at hneed
    · simp only [mem_map, mem_filter, Bool.and_eq_true] at hneed
      obtain ⟨l, ⟨hl, -, hw⟩, rfl⟩ := hneed
      exact ⟨wire_mem_planSteps.mpr ⟨hl, hw⟩, by simp [rank]⟩
  | ready d =>
    obtain ⟨hd, -⟩ := ready_mem_planSteps.mp hjob
    simp only [needs] at hneed
    split_ifs at hneed with hc
    · obtain rfl := mem_singleton.mp hneed
      exact ⟨configure_mem_planSteps.mpr ⟨hd, hc⟩, by simp [rank]⟩
    · simp at hneed
  | recordMode =>
    refine ⟨mem_append_left _ hneed, ?_⟩
    cases n with
    | recordMode =>
      simp only [needs, workSteps, mem_append, mem_flatMap, mem_map]
        at hneed
      rcases hneed with (((⟨_, -, h⟩ | ⟨_, -, h⟩) | ⟨_, -, h⟩) | ⟨_, -, h⟩) | h
      · simp at h
      · simp at h
      · simp at h
      · simp at h
      · split_ifs at h <;> simp at h
    | _ => simp [rank]

/-- A node with devices gets the plan of what is dirty. -/
theorem buildContext_of_mem {p : Schedule Step Effect} {w₀ : World}
    (h : buildContext e top r w = some (p, w₀)) (hd : d ∈ top.devicesOnNode e.node) :
    p = dirtyPlan e top r w ∧ w₀ = observeNode e top r w := by
  unfold buildContext at h
  split_ifs at h with hempty
  · rw [List.isEmpty_iff] at hempty
    nomatch hempty ▸ hd
  · obtain ⟨rfl, rfl⟩ := Prod.mk.inj (Option.some.inj h)
    exact ⟨rfl, rfl⟩

end Members

end Deploy

end Twinet
