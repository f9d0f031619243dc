import Mathlib.Data.List.Sort
import Twinet.Place.Resources

/-!
# What Is Placed

The topology as placement reads it, the record of an earlier placement, and the
assignment that placement makes. Devices are referred to by their identifiers.

The devices of a topology are kept in the order of their identifiers, which is the
order in which every loop over them goes.

## Main definitions

* `Topology`, `Record`, `Assignment`: What is read, what was deployed and what is made.
* `CapacityState`: What the nodes have to give.
* `serviceReplicaNode`: Where a device of a service is assigned.

## Theorems

* `mem_allNodeName`: The candidates are declared nodes.
* `names_subset`: The nodes to choose from are candidates.
-/

namespace Twinet

namespace Place

open List

/-! ### Topologies -/

structure PlacementGroup where
  id : String
  cls : String
  devices : List String

structure AS where
  role : String
  region : String
  node : String
  distributable : Bool
  groups : List PlacementGroup
  devices : List String

structure ServiceReplica where
  id : String
  homeNode : String
  device : Option String

structure Service where
  name : String
  device : Option String
  replicas : List ServiceReplica
  perNode : Bool
  node : String

/-- The devices at the ends of a link, where they are known. -/
structure Link where
  a : Option String
  b : Option String

structure PinMatch where
  as : Option Int
  role : String
  service : String
  region : String

structure PlacementPin where
  sel : PinMatch
  node : String

structure Lab where
  strategy : String
  nodes : List NodeSpec
  nodePool : String
  pin : List PlacementPin
  reserve : Table String Budget

structure Topology where
  name : String
  lab : Lab
  devices : List Device
  sorted : (devices.map Device.id).Pairwise (· < ·)
  ases : Table Int AS
  services : Table String Service
  links : List Link

/-- A placement as it was deployed. -/
structure Record where
  byAS : Table Int String
  byGroup : Table String String
  byService : Table String String
  byServiceReplica : Table String String

structure Options where
  strategy : String
  fixed : Option Record
  rebalance : Bool
  inventory : List NodeInventory
  strict : Bool
  overcommit : Bool
  unavailable : List String

/-- Strict admission is asked for and not waived. -/
def Options.admission (opts : Options) : Bool := opts.strict && !opts.overcommit

structure Assignment where
  byAS : Table Int String
  byGroup : Table String String
  byService : Table String String
  byServiceReplica : Table String String

namespace Lab

def nodeByName (lab : Lab) (name : String) : Option NodeSpec :=
  lab.nodes.find? (·.name = name)

/-- The node marked as the front, or the first one. -/
def frontNode (lab : Lab) : String :=
  match lab.nodes.find? (·.front) with
  | some n => n.name
  | none => match lab.nodes with
    | n :: _ => n.name
    | [] => "local"

def nodeInPool (lab : Lab) (name : String) : Bool :=
  match lab.nodeByName name with
  | none => false
  | some node => lab.nodePool == "" || node.pool == lab.nodePool

end Lab

namespace Topology

variable (top : Topology)

def device (id : String) : Option Device := top.devices.find? (·.id = id)

def sortedASNs : List Int := top.ases.keys.insertionSort (· ≤ ·)

def sortedServiceNames : List String := top.services.keys.insertionSort (· ≤ ·)

/-- The demand of the device with an identifier. -/
def demandOf (id : String) : Resources := ((top.device id).map deviceDemand).getD .zero

/-- The demand of several devices. -/
def demandOfAll (ids : List String) : Resources :=
  ids.foldl (fun d id => d.add (top.demandOf id)) .zero

/-- The service a device belongs to, with the replica if it is one. -/
def serviceByDevice (id : String) : Option (Service × Option ServiceReplica) :=
  top.sortedServiceNames.findSome? fun name =>
    (top.services.lookup name).bind fun s =>
      match s.replicas.find? (·.device = some id) with
      | some r => some (s, some r)
      | none => if s.device = some id then some (s, none) else none

end Topology

def AS.sortedPlacementGroups (as : AS) : List PlacementGroup :=
  as.groups.insertionSort fun a b => a.id ≤ b.id

def Service.sortedReplicas (s : Service) : List ServiceReplica :=
  s.replicas.insertionSort fun a b => a.id ≤ b.id

/-- The devices of a service. -/
def Service.devices (s : Service) : List String :=
  if s.replicas.isEmpty then s.device.toList else s.sortedReplicas.filterMap (·.device)

/-- Where a device of a service is assigned; the empty name if it is not one. -/
def serviceReplicaNode (top : Topology) (a : Assignment) (id : String) : String :=
  match top.serviceByDevice id with
  | none => ""
  | some (_, some r) => (a.byServiceReplica.lookup r.id).getD ""
  | some (s, none) => (a.byService.lookup s.name).getD ""

/-! ### Capacities of the nodes -/

/-- What the nodes have to give. A node is a candidate if its pool is right and it
    is available, and can be chosen if under strict admission nothing about it is
    unknown. -/
structure CapacityState where
  names : List String
  caps : Table String Resources
  hasCap : Table String Bool
  baseline : Table String Resources
  unknown : Table String (List Dimension)
  allNodeName : List String

namespace CapacityState

variable (s : CapacityState) (node : String)

def cap : Resources := (s.caps.lookup node).getD .zero

def has : Bool := (s.hasCap.lookup node).getD false

def base : Resources := (s.baseline.lookup node).getD .zero

def missing : List Dimension := (s.unknown.lookup node).getD []

end CapacityState

/-- No amount is negative. -/
def nonNegative (v : Resources) : Resources where
  containers := if v.containers < 0 then 0 else v.containers
  cpus := if v.cpus < 0 then 0 else v.cpus
  memoryBytes := if v.memory < 0 then 0 else v.memoryBytes
  memBytes := if v.memory < 0 then 0 else v.memBytes
  diskBytes := if v.diskBytes < 0 then 0 else v.diskBytes
  pids := if v.pids < 0 then 0 else v.pids
  fileDescriptors := if v.fileDescriptors < 0 then 0 else v.fileDescriptors
  netDevices := if v.netDevices < 0 then 0 else v.netDevices

/-- What others have reserved on a node. -/
def baselineOf (lab : String) (inv : NodeInventory) : Resources :=
  nonNegative (match inv.reservedByLab.lookup lab with
    | some own => inv.reserved.sub own
    | none => inv.reserved)

section

variable (top : Topology) (opts : Options)

/-- A node may be used: it is in the pool and available. -/
def candidate (node : NodeSpec) : Bool :=
  (top.lab.nodePool == "" || node.pool == top.lab.nodePool) &&
    !opts.unavailable.contains node.name

/-- The report about a node. The last one with its name counts. -/
def inventoryOf (name : String) : Option NodeInventory :=
  if name = "" then none else opts.inventory.reverse.find? (·.name = name)

def addNode (s : CapacityState) (node : NodeSpec) : CapacityState :=
  if !candidate top opts node then s
  else
    let inv := inventoryOf opts node.name
    let (cap, has, missing) := effectiveCapacityOf node top.lab.reserve inv
    { names := if opts.admission && !missing.isEmpty then s.names else s.names ++ [node.name]
      caps := s.caps.insert node.name cap
      hasCap := s.hasCap.insert node.name has
      baseline := match inv with
        | some inv => s.baseline.insert node.name (baselineOf top.name inv)
        | none => s.baseline
      unknown := if missing.isEmpty then s.unknown else s.unknown.insert node.name missing
      allNodeName := node.name :: s.allNodeName }

def buildCapacityState : CapacityState :=
  let s := top.lab.nodes.foldl (addNode top opts) ⟨[], ∅, ∅, ∅, ∅, []⟩
  { s with names := s.names.insertionSort (· ≤ ·) }

end

section Candidates

variable {top : Topology} {opts : Options}

theorem allNodeName_addNode (s : CapacityState) (node : NodeSpec) :
    (addNode top opts s node).allNodeName =
      if candidate top opts node then node.name :: s.allNodeName else s.allNodeName := by
  rw [addNode]
  cases candidate top opts node <;> rfl

variable {name : String}

theorem names_addNode {s : CapacityState} {node : NodeSpec}
    (h : name ∈ (addNode top opts s node).names) :
    name ∈ s.names ∨ candidate top opts node = true ∧ name = node.name := by
  revert h
  fun_cases addNode with
  | case1 => exact .inl
  | case2 hc =>
    simp only
    split_ifs
    · exact .inl
    · intro h
      rcases mem_append.mp h with h | h
      · exact .inl h
      · exact .inr ⟨by simpa using hc, mem_singleton.mp h⟩

/-- The candidates are declared nodes. -/
theorem mem_allNodeName :
    name ∈ (buildCapacityState top opts).allNodeName ↔
      ∃ node ∈ top.lab.nodes, candidate top opts node = true ∧ node.name = name := by
  have hfold : ∀ (nodes : List NodeSpec) (s : CapacityState),
      name ∈ (nodes.foldl (addNode top opts) s).allNodeName ↔ name ∈ s.allNodeName ∨
        ∃ node ∈ nodes, candidate top opts node = true ∧ node.name = name := by
    intro nodes
    induction nodes with
    | nil => simp
    | cons node nodes ih =>
      intro s
      rw [foldl_cons, ih, allNodeName_addNode]
      cases hc : candidate top opts node with
      | false => simp [hc]
      | true =>
        simp only [if_true, mem_cons, exists_eq_or_imp, hc, true_and]
        rw [eq_comm, or_assoc, or_left_comm]
  exact (hfold _ _).trans (by simp)

/-- The nodes to choose from are candidates. -/
theorem names_subset (h : name ∈ (buildCapacityState top opts).names) :
    name ∈ (buildCapacityState top opts).allNodeName := by
  rw [mem_allNodeName]
  have hnames := (mem_insertionSort (· ≤ ·)).mp h
  refine foldlRecOn (motive := fun s : CapacityState => name ∈ s.names →
    ∃ node ∈ top.lab.nodes, candidate top opts node = true ∧ node.name = name) top.lab.nodes _
    (fun h => absurd h not_mem_nil) (fun s hs node hn h => ?_) hnames
  rcases names_addNode h with h | ⟨hc, rfl⟩
  · exact hs h
  · exact ⟨node, hn, hc, rfl⟩

theorem nodeByName_of_candidate (h : name ∈ (buildCapacityState top opts).allNodeName) :
    (top.lab.nodeByName name).isSome = true := by
  obtain ⟨node, hmem, -, rfl⟩ := mem_allNodeName.mp h
  rw [Lab.nodeByName, find?_isSome]
  exact ⟨node, hmem, by simp⟩

end Candidates

end Place

end Twinet
