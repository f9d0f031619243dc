import Twinet.Place.Locality

/-!
# Strict Admission

The check that an assignment has to pass before it is written down anywhere. It
works out for itself where each device will be, charges the node with what the
device asks for, on top of what others have reserved there, and refuses if a
device has no node, is on a node that is not a candidate or about which something
is unknown, or if more is asked of a node than it has.

## Main definitions

* `nodeForAssignment`: The node a device is charged to.
* `strictAssignmentError`: The check.

## Theorems

* `strictAssignmentError_eq_none_iff`: What is admitted.
-/

namespace Twinet

namespace Place

/-- More is requested of a node in a dimension than is allocatable. -/
structure Overload where
  node : String
  dim : Dimension
  requested : ℚ
  allocatable : ℚ
deriving DecidableEq

/-- Why nothing is placed. -/
inductive PlaceError where
  | noNodes
  | noPoolNode (pool : String)
  | noCompleteInventory
  | serviceWithoutCandidate (service : String)
  | servicePinned (service node : String)
  | pinnedToUnknown (asn : Int) (node : String)
  | pinnedUnknownCapacity (asn : Int) (node : String) (missing : List Dimension)
  | groupUnknownCapacity (group node : String) (missing : List Dimension)
  | noRoom (asn : Int)
  | unknownStrategy (strategy : String)
  | noAnchor (asn : Int)
  | unresolved (device : String)
  | undeclared (device node : String)
  | unknownCapacity (device node : String) (missing : List Dimension)
  | overloaded (excess : List Overload)
  | unplaced (device : String) (asn : Int) (group : String)
  | placedOnUnknown (device node : String)
  | attachments
deriving DecidableEq

section

variable (top : Topology) (a : Assignment)

variable (s : CapacityState) (d : Device)

/-- The node of a device of a service, or the front. -/
def serviceOrFront : String :=
  if serviceReplicaNode top a d.id ≠ "" then serviceReplicaNode top a d.id else top.lab.frontNode

/-- The node a device is charged to. A device of an AS is where its group is, if
    that is somewhere, and else where the AS is. -/
def nodeForAssignment : String :=
  if d.asn ≠ 0 then
    if d.placementGroup ≠ "" ∧ (a.byGroup.lookup d.placementGroup).getD "" ≠ "" then
      (a.byGroup.lookup d.placementGroup).getD ""
    else nodeAt a.byAS d.asn
  else serviceOrFront top a d

/-- Charge a node with a device. -/
def charge (loads : Table String Resources) (node : String) (need : Resources) :
    Table String Resources :=
  loads.insert node ((loadAt loads node).add need)

/-- What is asked of each node. -/
def assignmentDemands (baseline : Table String Resources) : Table String Resources :=
  top.devices.foldl (fun loads d =>
    let node := nodeForAssignment top a d
    if node = "" then loads else charge loads node (deviceDemand d)) baseline

/-- Where more is asked than there is, node by node. -/
def overloads : List Overload :=
  let loads := assignmentDemands top a s.baseline
  (loads.keys.insertionSort (· ≤ ·)).flatMap fun name =>
    if !s.has name then []
    else (Dimension.all.filter fun dim => exceeds dim (s.cap name) (loadAt loads name)).map
      fun dim =>
        { node := name, dim := dim, requested := (loadAt loads name).amount dim
          allocatable := max 0 ((s.cap name).amount dim) }

/-- Why a device may not be where it is assigned. -/
def deviceRefusal : Option PlaceError :=
  let node := nodeForAssignment top a d
  if node = "" then some (.unresolved d.id)
  else if node ∉ s.allNodeName then some (.undeclared d.id node)
  else if s.missing node ≠ [] then some (.unknownCapacity d.id node (s.missing node))
  else none

def strictAssignmentError : Option PlaceError :=
  match top.devices.findSome? (deviceRefusal top a s) with
  | some err => some err
  | none => if overloads top a s ≠ [] then some (.overloaded (overloads top a s)) else none

end

/-! ### What is admitted -/

section Admitted

variable {top : Topology} {a : Assignment} {s : CapacityState}

theorem deviceRefusal_eq_none_iff {d : Device} : deviceRefusal top a s d = none ↔
    nodeForAssignment top a d ≠ "" ∧ nodeForAssignment top a d ∈ s.allNodeName ∧
      s.missing (nodeForAssignment top a d) = [] := by
  rw [deviceRefusal]
  by_cases hblank : nodeForAssignment top a d = ""
  · simp [hblank]
  · by_cases hnode : nodeForAssignment top a d ∈ s.allNodeName
    · by_cases hmissing : s.missing (nodeForAssignment top a d) = []
      · simp [hblank, hnode, hmissing]
      · simp [hblank, hnode, hmissing]
    · simp [hblank, hnode]

theorem loadAt_of_not_mem {loads : Table String Resources} {node : String}
    (h : node ∉ loads.keys) : loadAt loads node = .zero := by
  rw [loadAt, AList.lookup_eq_none.mpr h]
  rfl

theorem overloads_eq_nil_iff : overloads top a s = [] ↔ ∀ node, s.has node = true → ∀ dim,
    exceeds dim (s.cap node) (loadAt (assignmentDemands top a s.baseline) node) = false := by
  rw [overloads, List.flatMap_eq_nil_iff]
  constructor
  · intro h node hhas dim
    by_cases hmem : node ∈ (assignmentDemands top a s.baseline).keys
    · have hnode := h node ((List.mem_insertionSort _).mpr hmem)
      simp only [hhas, Bool.not_true, Bool.false_eq_true, if_false, List.map_eq_nil_iff,
        List.filter_eq_nil_iff, Bool.not_eq_true] at hnode
      exact hnode dim (by cases dim <;> decide)
    · rw [loadAt_of_not_mem hmem, exceeds, Resources.amount_zero]
      simp only [lt_irrefl, decide_false, Bool.and_false, Bool.false_or, Bool.and_eq_false_iff,
        decide_eq_false_iff_not, not_lt]
      exact le_total _ _
  · intro h node _
    cases hhas : s.has node with
    | false => rfl
    | true => simp [h node hhas]

/-- What is admitted: every device has a candidate for a node about which everything
    is known, and no node is asked for more than it has. -/
theorem strictAssignmentError_eq_none_iff : strictAssignmentError top a s = none ↔
    (∀ d ∈ top.devices, nodeForAssignment top a d ≠ "" ∧
      nodeForAssignment top a d ∈ s.allNodeName ∧ s.missing (nodeForAssignment top a d) = []) ∧
    ∀ node, s.has node = true → ∀ dim,
      exceeds dim (s.cap node) (loadAt (assignmentDemands top a s.baseline) node) = false := by
  rw [strictAssignmentError, ← overloads_eq_nil_iff]
  cases hrefused : top.devices.findSome? (deviceRefusal top a s) with
  | some err =>
    simp only [reduceCtorEq, false_iff, not_and]
    intro hall
    obtain ⟨d, hd, herr⟩ := List.exists_of_findSome?_eq_some hrefused
    rw [deviceRefusal_eq_none_iff.mpr (hall d hd)] at herr
    cases herr
  | none =>
    have hall : ∀ d ∈ top.devices, _ := fun d hd =>
      deviceRefusal_eq_none_iff.mp (List.findSome?_eq_none_iff.mp hrefused d hd)
    by_cases hover : overloads top a s = []
    · simpa [hover] using hall
    · simp [hover]

end Admitted

end Place

end Twinet
