import Twinet.Deploy.Rewire

/-!
# The State of a Node

What a deployment observes on a node and what it records about it: the
containers with their labels and namespaces, the shared overlays, the record
of the last deployment, and what the engine remembers while one pass runs.

## Main definitions

* `Engine`: What a deployment is asked for, and what its backend can do.
* `World`: The node, its record and the memory of the engine.
* `Readings`, `RunEnv`: What an observation finds, and what becomes of a run.
-/

namespace Twinet

namespace Deploy

inductive ContainerState where
  | absent
  | created
  | running
  | paused
  | restarting
  | exited
  | dead
deriving DecidableEq, Repr

/-- The container has a namespace that can be entered. -/
def ContainerState.joinable : ContainerState → Bool
  | running => true
  | paused => true
  | _ => false

/-- A container with the labels a deployment compares. A missing label reads as
    the empty string. -/
structure Container where
  state : ContainerState
  specLabel : String
  contractLabel : String
  hashLabel : String
  /-- The namespace its task is in. -/
  netns : NetnsIdentity
deriving DecidableEq, Repr

def NetnsIdentity.known (n : NetnsIdentity) : Bool := n.inode != 0

def NetnsIdentity.sameAs (n m : NetnsIdentity) : Bool := n.known && m.known && n == m

structure DeviceRecord where
  specHash : String
  configHash : String
  fileHash : String
  commandHash : String
  readyHash : String
deriving DecidableEq, Repr

/-- The record of the last deployment. -/
structure Record where
  mode : String
  devices : String → Option DeviceRecord
  links : String → Option String
  namespaces : String → Option NetnsIdentity

/-- One mapping on a shared carrier: a VNI, through a VLAN of the bridge, to a
    peer. -/
structure TunnelEntry where
  vni : Nat
  vlan : Nat
  peer : String
deriving DecidableEq, Repr

/-- The bridge and the VXLAN that carry the links of a pair of nodes. -/
structure PhysicalTrunk where
  bridge : String
  vxlan : String
  mtu : Nat
  port : Nat
deriving DecidableEq, Repr

/-- A trunk on the host with what it carries. -/
structure Carrier where
  pair : String × String
  trunk : PhysicalTrunk
  /-- An external VXLAN without learning, from the address it should have. -/
  sound : Bool
  /-- The bridge has ports besides the VXLAN. -/
  ports : Bool
  entries : List TunnelEntry
deriving DecidableEq, Repr

/-- A VXLAN of one link alone, from before links shared a trunk. -/
structure LegacyTunnel where
  vni : Nat
  peer : String
  mtu : Nat
  port : Nat
deriving DecidableEq, Repr

/-- The overlays of a lab on this host. -/
structure HostOverlay where
  carriers : List Carrier
  legacy : List LegacyTunnel
deriving DecidableEq, Repr

/-- What is rendered for a device, by its hashes. -/
structure Desired where
  specHash : String
  /-- The hash of the control sidecar, if the device has one. -/
  controlHash : Option String
  configHash : String
  fileHash : String
  commandHash : String
  readyHash : String
  /-- A hash is a digest in hexadecimal. -/
  configHash_ne : configHash ≠ ""
deriving DecidableEq, Repr

/-- What a deployment is asked for, and what its backend can do. -/
structure Engine where
  node : String
  modeKey : String
  /-- The version of the runtime contract new containers are labelled with. -/
  contract : String
  /-- The engine has a renderer. -/
  renders : Bool
  /-- The renderer gives the device a readiness predicate. -/
  hasReady : Device → Bool
  recoveryCompatibility : Bool
  observationReadOnly : Bool
  supportsNetnsIdentity : Bool
  hasStore : Bool
  writesReference : Bool
  restoreStudentState : Bool
  shouldForceStudentReset : Device → Bool
  probesSemantics : Bool
  forceOverlayReconcile : Bool
  desired : Device → Desired
  wireHash : Link → String
  retainLegacyOverlays : Bool
  /-- The bridge VLAN of a cross-node link. -/
  vlan : Link → Nat
  /-- The address of a node on the underlay. -/
  peerUnderlay : String → String
  /-- The names, the size and the port of the trunk of a pair of nodes. -/
  trunk : String × String → PhysicalTrunk

/-- The node, the record on disk and in memory, and the memory of the engine. -/
structure World where
  container : String → Option Container
  control : String → Option Container
  overlay : HostOverlay
  disk : Record
  tracker : Record
  marker : String → Bool
  pendingRestore : String → Bool
  lostNamespaceState : String → Bool
  unprovenNamespace : String → Bool
  createdContainers : String → Bool

/-- What one observation of the node finds beyond the listing: which identities
    can be read, what the probes report, and which namespaces are shown to hold
    what is saved for them. -/
structure Readings where
  readable : String → Bool
  controlReadable : String → Bool
  semanticOk : Device → Bool
  proven : Device → Bool

/-- What becomes of a run that the plan does not decide: the namespace a task
    is started into, which marker commands work, and what a capture finds. -/
structure RunEnv where
  born : String → NetnsIdentity
  marks : String → Bool
  probe : String → Bool
  captureFindsLost : String → Bool

end Deploy

end Twinet
