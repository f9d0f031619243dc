import Twinet.Lib.Fallible
import Twinet.Place.Admission

/-!
# Making an Assignment

Everything that placement does before it touches a device. Pins come first, then
what the record says, then services, then the ASes that are left, and at last the
groups of an AS that may be distributed. Under strict admission the outcome is
checked as a whole.

What the later proofs need to know of the search is little: whatever node it
assigns to a group or a service is one of the nodes it can choose from. Which node
that is does not matter to admission, since it works out for itself what was
decided.

## Main definitions

* `serviceNode`, `bestGroupNode`: Where a service and an AS go.
* `distributeGroups`: The groups of an AS that may go elsewhere.
* `assign`: The assignment.
* `Settled`: Every group and service is on a node of a kind.

## Theorems

* `bestGroupNode_mem`, `serviceNode_mem`: The search stays among its nodes.
* `assign_admitted`: An assignment is admitted and settled.
-/

namespace Twinet

namespace Place

open List Fallible

/-! ### Services -/

section

variable (top : Topology) (opts : Options) (s : CapacityState) (nominal : Int) (front : String)

section

variable (loads : Table String Resources)

/-- The emptiest of some nodes. -/
def leastLoaded (weights : Weights) (need : Resources) (nominal : Int)
    (nodes : List String) : Option (String × ℚ) :=
  nodes.foldl (fun best n =>
    let p := placementPressure ((loadAt loads n).add need) (s.cap n) (s.has n) nominal (weights n)
    match best with
    | none => some (n, p)
    | some b => if p < b.2 then some (n, p) else best) none

/-- The emptiest node that has room, or the emptiest one. -/
def bestGroupNode (weights : Weights) (need : Resources) (nominal : Int) : String :=
  match leastLoaded s loads weights need nominal
    (s.names.filter fun n => fits (loadAt loads n) need (s.cap n) (s.has n)) with
  | some best => best.1
  | none =>
    match leastLoaded s loads weights need nominal s.names with
    | some best => best.1
    | none => s.names.headD ""

/-- Nodes weigh the same for a service. -/
def bestServiceNode (need : Resources) (nominal : Int) : String :=
  bestGroupNode s loads (fun _ => 0) need nominal

end

/-- The first replica takes over the place of a service that had none. -/
def stringsFirstReplica (replica : String) : Bool :=
  replica.endsWith "/replica-001" || replica.endsWith "/shard-001"

/-- Where the record has a service or a replica of it. -/
def recordedServiceNode (fixed : Record) (service replica : String) : String :=
  if replica ≠ "" then
    let recorded := (fixed.byServiceReplica.lookup replica).getD ""
    if recorded = "" ∧ (fixed.byService.lookup service).getD "" ≠ "" ∧
        stringsFirstReplica replica = true then (fixed.byService.lookup service).getD ""
    else recorded
  else (fixed.byService.lookup service).getD ""

/-- Where a service was, if that is to be kept. -/
def keptServiceNode (service replica : String) : String :=
  match opts.fixed with
  | none => ""
  | some fixed => if opts.rebalance then "" else recordedServiceNode fixed service replica

/-- The node of a service or of a replica of one: where it is pinned, where it was,
    at its home, at the front if it has no replicas, or wherever there is room. -/
def serviceNode (opts : Options) (loads : Table String Resources) (nominal : Int)
    (front service replica home pin : String) (need : Resources) : Except PlaceError String :=
  if s.names = [] then .error (.serviceWithoutCandidate service)
  else if pin ≠ "" then
    if pin ∈ s.names then .ok pin else .error (.servicePinned service pin)
  else
    let recorded := keptServiceNode opts service replica
    if recorded ≠ "" then
      if recorded ∈ s.names then .ok recorded
      else .ok (bestServiceNode s loads need nominal)
    else if home ≠ "" ∧ home ∈ s.names ∧
        fits (loadAt loads home) need (s.cap home) (s.has home) = true then .ok home
    else if replica = "" ∧ front ≠ "" ∧ front ∈ s.names then .ok front
    else .ok (bestServiceNode s loads need nominal)

/-- An assignment in the making, with what it asks of the nodes. -/
structure Search where
  assignment : Assignment
  loads : Table String Resources

/-- Charge a node with a device, if there is one. -/
def Search.chargeDevice (st : Search) (top : Topology) (node : String) (device : Option String) :
    Table String Resources :=
  match device with
  | none => st.loads
  | some id => charge st.loads node (top.demandOf id)

/-- A service without replicas. -/
def placeSingleton (name pin : String) (service : Service)
    (st : Search) : Except PlaceError Search :=
  match serviceNode s opts st.loads nominal front name "" "" pin
    ((service.device.map top.demandOf).getD .zero) with
  | .error err => .error err
  | .ok node => .ok
      { assignment := { st.assignment with
          byService := st.assignment.byService.insert name node }
        loads := st.chargeDevice top node service.device }

/-- One replica of a service. The first one also stands for the service. -/
def placeReplica (name pin : String) (service : Service) (st : Search) (replica : ServiceReplica) :
    Except PlaceError Search :=
  let home := if opts.rebalance && !service.perNode then "" else replica.homeNode
  match serviceNode s opts st.loads nominal front name replica.id home pin
    ((replica.device.map top.demandOf).getD .zero) with
  | .error err => .error err
  | .ok node => .ok
      { assignment := { st.assignment with
          byServiceReplica := st.assignment.byServiceReplica.insert replica.id node
          byService := if (st.assignment.byService.lookup name).getD "" = "" then
            st.assignment.byService.insert name node else st.assignment.byService }
        loads := st.chargeDevice top node replica.device }

variable (pinned : Table String String)

/-- Where a service is pinned, by the lab or by itself. -/
def servicePin (name : String) (service : Service) : String :=
  if (pinned.lookup name).getD "" = "" then service.node else (pinned.lookup name).getD ""

variable (st : Search) (groups : List PlacementGroup)

def placeService (name : String) : Except PlaceError Search :=
  match top.services.lookup name with
  | none => .ok st
  | some service =>
    if service.replicas.isEmpty then
      placeSingleton top opts s nominal front name (servicePin pinned name service) service st
    else service.sortedReplicas.foldlM (placeReplica top opts s nominal front name
      (servicePin pinned name service) service) st

def placeServices : Except PlaceError Search :=
  top.sortedServiceNames.foldlM
    (placeService top opts s (nominalCapacity s top.devices.length) front pinned) st

/-! ### Pins and records -/

/-- A pin selects an AS. One that is about services only selects none. -/
def PinMatch.selects (m : PinMatch) (asn : Int) (as : AS) : Bool :=
  m.as.all (· = asn) && (m.role == "" || m.role == as.role) &&
    (m.region == "" || m.region == as.region) &&
    !(m.as.isNone && m.role == "" && m.region == "")

/-- The ASes that are pinned: by the lab, the last pin counting, or by themselves. -/
def explicitPins : Table Int String :=
  let byLab := top.lab.pin.foldl (fun pinned p =>
    top.sortedASNs.foldl (fun pinned asn =>
      if (top.ases.lookup asn).any (p.sel.selects asn) then pinned.insert asn p.node else pinned)
        pinned) ∅
  top.sortedASNs.foldl (fun pinned asn =>
    match top.ases.lookup asn with
    | none => pinned
    | some as => if as.node ≠ "" then pinned.insert asn as.node else pinned) byLab

def servicePins : Table String String :=
  top.lab.pin.foldl (fun pinned p =>
    if p.sel.service = "" then pinned
    else top.sortedServiceNames.foldl (fun pinned name =>
      if p.sel.service = "*" ∨ p.sel.service = name then pinned.insert name p.node else pinned)
        pinned) ∅

/-- The record that counts, unless a rebalance was asked for. -/
def Options.record : Option Record := if opts.rebalance then none else opts.fixed

/-- The pins with what the record adds: an AS stays where it was if that is still a
    candidate. -/
def recordedPins : Table Int String :=
  match opts.record with
  | none => explicitPins top
  | some fixed => top.sortedASNs.foldl (fun pinned asn =>
    match fixed.byAS.lookup asn with
    | none => pinned
    | some n =>
        if (pinned.lookup asn).isSome ∨ n ∉ s.allNodeName then pinned else pinned.insert asn n)
      (explicitPins top)

/-- A group was on a candidate about which something is unknown. -/
def recordedGroupRefusal : Option PlaceError :=
  match opts.record with
  | none => none
  | some fixed =>
    if !opts.admission then none
    else (fixed.byGroup.keys.insertionSort (· ≤ ·)).findSome? fun group =>
      let node := (fixed.byGroup.lookup group).getD ""
      if node ∈ s.allNodeName ∧ s.missing node ≠ [] then
        some (.groupUnknownCapacity group node (s.missing node)) else none

/-! ### ASes -/

def groupDemand (g : PlacementGroup) : Resources := top.demandOfAll g.devices

/-- What is reserved for an AS whose groups are distributed later. -/
def placementAnchorDemand (as : AS) : Resources :=
  let anchors := (as.groups.filter (·.cls ≠ "leaf")).foldl
    (fun d g => d.add (groupDemand top g)) .zero
  if anchors.empty then top.demandOfAll as.devices else anchors

def asWeight (as : AS) : Resources :=
  if as.distributable then placementAnchorDemand top as else top.demandOfAll as.devices

def asWeights : Table Int Resources :=
  top.sortedASNs.foldl (fun w asn =>
    w.insert asn (((top.ases.lookup asn).map (asWeight top)).getD .zero)) ∅

/-- Put an AS on a node. -/
def Search.placeAS (weight : Table Int Resources) (asn : Int) (node : String) : Search :=
  { assignment := { st.assignment with byAS := st.assignment.byAS.insert asn node }
    loads := charge st.loads node ((weight.lookup asn).getD .zero) }

/-- An AS that is pinned goes where it is pinned. -/
def placePinned (pinned : Table Int String) (weight : Table Int Resources) (st : Search)
    (asn : Int) : Except PlaceError Search :=
  match pinned.lookup asn with
  | none => .ok st
  | some n =>
    if n ∉ s.allNodeName then .error (.pinnedToUnknown asn n)
    else if opts.admission ∧ s.missing n ≠ [] then
      .error (.pinnedUnknownCapacity asn n (s.missing n))
    else .ok (st.placeAS weight asn n)

/-- How much fuller than the emptiest a node may be for the sake of locality. -/
def tolerance (strategy : String) : ℚ := if strategy = "pack-by-as" then 1 / 10 else 0

/-- An AS that is free goes to the best node. -/
def placeFree (g : AffinityGraph) (weight : Table Int Resources) (strategy front : String)
    (nominal : Int) (st : Search) (asn : Int) : Except PlaceError Search :=
  match bestForLocality s st.loads (nodePlacementWeights top.lab) ((weight.lookup asn).getD .zero)
    (tolerance strategy) nominal (fun node => g.pull asn node st.assignment.byAS front) with
  | none => .error (.noRoom asn)
  | some n => .ok (st.placeAS weight asn n)

/-- All ASes: the pinned ones, then the free ones, then the improvement. -/
def placeASes (strategy front : String) (pinned : Table Int String)
    (st : Search) : Except PlaceError Search := do
  let weight := asWeights top
  let st ← top.sortedASNs.foldlM (placePinned opts s pinned weight) st
  if strategy ≠ "pack-by-as" ∧ strategy ≠ "spread-by-as" then .error (.unknownStrategy strategy)
  else
    let free := top.sortedASNs.filter fun asn => (pinned.lookup asn).isNone
    let g := buildAffinity top
    let nominal := nominalCapacity s top.devices.length
    let st ← (orderForLocality free g weight).foldlM
      (placeFree top s g weight strategy front nominal) st
    let (byAS, loads) := refine s st.assignment.byAS g weight st.loads
      (nodePlacementWeights top.lab) pinned front (tolerance strategy) nominal
    .ok { assignment := { st.assignment with byAS := byAS }, loads := loads }

/-! ### Groups -/

/-- What the ASes and services as assigned ask of the nodes. -/
def placementDemands (a : Assignment) (baseline : Table String Resources) :
    Table String Resources :=
  let ases := top.sortedASNs.foldl (fun loads asn =>
    (((top.ases.lookup asn).map (·.devices)).getD []).foldl (fun loads id =>
      charge loads (nodeAt a.byAS asn) (top.demandOf id)) loads) baseline
  top.sortedServiceNames.foldl (fun loads name =>
    (((top.services.lookup name).map Service.devices).getD []).foldl (fun loads id =>
      charge loads (serviceReplicaNode top a id) (top.demandOf id)) loads) ases

/-- Where the groups of an AS are recorded, if the node can be chosen. -/
def fixedGroups : Table String String :=
  match opts.record with
  | none => ∅
  | some fixed => groups.foldl (fun t g =>
    match fixed.byGroup.lookup g.id with
    | some n => if n ∈ s.names then t.insert g.id n else t
    | none => t) ∅

/-- The record has the AS but none of its groups: it was deployed as a whole. -/
def deployedWhole (asn : Int) : Bool :=
  match opts.record with
  | none => false
  | some fixed => (fixed.byAS.lookup asn).isSome &&
      !groups.any fun g => (fixed.byGroup.lookup g.id).isSome

/-- The groups that stay with the AS, and those that may go elsewhere. -/
def anchorsAndLeaves : List PlacementGroup × List PlacementGroup :=
  let anchors := groups.filter (·.cls ≠ "leaf")
  if anchors = [] then (groups.take 1, groups.drop 1) else (anchors, groups.filter (·.cls = "leaf"))

/-- Put a group on a node. -/
def Search.placeGroup (top : Topology) (g : PlacementGroup) (node : String) : Search :=
  { assignment := { st.assignment with byGroup := st.assignment.byGroup.insert g.id node }
    loads := charge st.loads node (groupDemand top g) }

/-- The groups that stay, each where the record has it or with the one before. The
    AS is then where the last of them is. -/
def placeAnchors (top : Topology) (fixed : Table String String) (asn : Int) :
    List PlacementGroup → String → Search → Search
  | [], anchor, st =>
    { st with assignment := { st.assignment with
        byAS := st.assignment.byAS.insert asn anchor } }
  | g :: rest, anchor, st =>
    let n := (fixed.lookup g.id).getD anchor
    placeAnchors top fixed asn rest n (st.placeGroup top g n)

def placeLeaf (fixed : Table String String) (st : Search) (g : PlacementGroup) : Search :=
  st.placeGroup top g (match fixed.lookup g.id with
    | some n => n
    | none => bestGroupNode s st.loads (nodePlacementWeights top.lab) (groupDemand top g) nominal)

/-- Distribute the groups of one AS. -/
def distributeGroups (explicit : Table Int String) (st : Search)
    (asn : Int) : Except PlaceError Search :=
  match top.ases.lookup asn with
  | none => .ok st
  | some as =>
    let groups := as.sortedPlacementGroups
    if !as.distributable || decide (groups.length < 2) || (explicit.lookup asn).isSome ||
        deployedWhole opts groups asn then .ok st
    else
      let anchor := nodeAt st.assignment.byAS asn
      if (st.assignment.byAS.lookup asn).isNone ∨ anchor ∉ s.names then .error (.noAnchor asn)
      else
        let fixed := fixedGroups opts s groups
        let loads := groups.foldl (fun loads g => loads.insert anchor
          ((loadAt loads anchor).sub (groupDemand top g))) st.loads
        let st := placeAnchors top fixed asn (anchorsAndLeaves groups).1 anchor
          { st with loads := loads }
        .ok ((anchorsAndLeaves groups).2.foldl (placeLeaf top s nominal fixed) st)

def distributePlacementGroups (explicit : Table Int String)
    (a : Assignment) : Except PlaceError Assignment :=
  if s.names.length < 2 then .ok a
  else
    (top.sortedASNs.foldlM
      (distributeGroups top opts s (nominalCapacity s top.devices.length) explicit)
      ⟨a, placementDemands top a s.baseline⟩).map (·.assignment)

/-! ### Everything together -/

/-- The node that stands for the front: the front itself if it may be used, and else
    the first node that may. -/
def availableFront : Option String :=
  let usable := fun name => !opts.unavailable.contains name && top.lab.nodeInPool name
  let front := top.lab.frontNode
  if usable front then some front else (top.lab.nodes.find? fun n => usable n.name).map (·.name)

def strategyOf : String :=
  if opts.strategy ≠ "" then opts.strategy
  else if top.lab.strategy ≠ "" then top.lab.strategy else "pack-by-as"

/-- Everything on one node. -/
def assignSingleNode : Assignment where
  byAS := top.sortedASNs.foldl (fun t asn => t.insert asn front) ∅
  byGroup := ∅
  byService := top.sortedServiceNames.foldl (fun t name => t.insert name front) ∅
  byServiceReplica := top.sortedServiceNames.foldl (fun t name =>
    (((top.services.lookup name).map Service.sortedReplicas).getD []).foldl (fun t r =>
      t.insert r.id front) t) ∅

/-- The search for an assignment. -/
def assignNodes :
    Except PlaceError Assignment := do
  if s.names = [] then .error (if opts.admission then .noCompleteInventory else .noNodes)
  else match recordedGroupRefusal opts s with
    | some err => .error err
    | none =>
      let st ← placeServices top opts s front (servicePins top) ⟨⟨∅, ∅, ∅, ∅⟩, s.baseline⟩
      let st ← placeASes top opts s (strategyOf top opts) front (recordedPins top opts s) st
      distributePlacementGroups top opts s (explicitPins top) st.assignment

/-- Refuse an assignment under strict admission. -/
def admitChecked (a : Assignment) : Except PlaceError Assignment :=
  match strictAssignmentError top a s with
  | some err => if opts.admission then .error err else .ok a
  | none => .ok a

/-- An assignment by the strategy that is asked for. -/
def assignByStrategy : Except PlaceError Assignment :=
  if strategyOf top opts = "single-node" then .ok (assignSingleNode top front)
  else assignNodes top opts (buildCapacityState top opts) front

/-- The assignment, before any device is touched. -/
def assign : Except PlaceError Assignment :=
  if top.lab.nodes = [] then .error .noNodes
  else match availableFront top opts with
    | none => .error (.noPoolNode top.lab.nodePool)
    | some front =>
      (assignByStrategy top opts front).bind (admitChecked top opts (buildCapacityState top opts))

end

/-! ### What the search keeps to -/

/-- All entries of a table are of a kind. -/
def Among {κ : Type} [DecidableEq κ] (p : κ → String → Prop) (t : Table κ String) : Prop :=
  ∀ k n, t.lookup k = some n → p k n

variable {n : String}

section Among

variable {κ : Type} [DecidableEq κ] {p : κ → String → Prop} {t : Table κ String}

theorem among_empty : Among p (∅ : Table κ String) := nofun

theorem Among.insert (h : Among p t) {k : κ} (hn : p k n) : Among p (t.insert k n) := by
  intro k' n' hlook
  rcases Table.lookup_insert_eq_some.mp hlook with ⟨rfl, rfl⟩ | ⟨-, hlook⟩
  · exact hn
  · exact h k' n' hlook

theorem Among.mono {q : κ → String → Prop} (h : Among p t) (hpq : ∀ k n, p k n → q k n) :
    Among q t :=
  fun k n hlook => hpq k n (h k n hlook)

theorem Among.foldl_insert {α : Type} (h : Among p t) (key : α → κ) (hn : ∀ k, p k n)
    (xs : List α) : Among p (xs.foldl (fun t x => t.insert (key x) n) t) := by
  exact foldlRecOn xs _ h fun t ht x _ => ht.insert (hn _)

end Among

/-- A group of an AS that may be distributed. -/
def GroupOf (top : Topology) (id : String) : Prop :=
  ∃ asn as, top.ases.lookup asn = some as ∧ as.distributable = true ∧ ∃ g ∈ as.groups, g.id = id

/-- What is placed as a group is one, and every group and every service is on a node
    of a kind. -/
structure Settled (top : Topology) (p : String → Prop) (a : Assignment) : Prop where
  groups : Among (fun id n => GroupOf top id ∧ p n) a.byGroup
  services : Among (fun _ n => p n) a.byService
  replicas : Among (fun _ n => p n) a.byServiceReplica

/-- So far the groups and services are on nodes to choose from. -/
def Search.InNames (top : Topology) (s : CapacityState) (st : Search) : Prop :=
  Settled top (· ∈ s.names) st.assignment

variable {front : String} {a : Assignment}

section Names

variable {top : Topology} {opts : Options} {s : CapacityState} {nominal : Int}
  {loads : Table String Resources} {need : Resources} {weights : Weights}

theorem leastLoaded_mem {nodes : List String} {best : String × ℚ}
    (h : leastLoaded s loads weights need nominal nodes = some best) : best.1 ∈ nodes := by
  refine foldlRecOn (motive := fun acc => ∀ b, acc = some b → b.1 ∈ nodes) nodes _ nofun
    (fun acc hacc n hn b hb => ?_) best h
  cases acc with
  | none =>
    cases hb
    exact hn
  | some b₀ =>
    simp only at hb
    split_ifs at hb
    · cases hb
      exact hn
    · exact hacc b hb

/-- An AS goes to one of the nodes. -/
theorem bestGroupNode_mem (hnames : s.names ≠ []) :
    bestGroupNode s loads weights need nominal ∈ s.names := by
  rw [bestGroupNode]
  split
  · rename_i best hbest
    exact (mem_filter.mp (leastLoaded_mem hbest)).1
  · split
    · rename_i best hbest
      exact leastLoaded_mem hbest
    · cases hn : s.names with
      | nil => exact absurd hn hnames
      | cons n names => exact mem_cons_self ..

variable {pin : String}

/-- So does a service. -/
theorem serviceNode_mem {service replica home : String}
    (h : serviceNode s opts loads nominal front service replica home pin need = .ok n) :
    n ∈ s.names := by
  rw [serviceNode] at h
  by_cases hnames : s.names = []
  · simp [hnames] at h
  · simp only [if_neg hnames] at h
    split_ifs at h with _ hpin hrec hin hhome hfront
    all_goals cases h
    · exact hpin
    · exact hin
    · exact bestGroupNode_mem hnames
    · exact hhome.2.1
    · exact hfront.2.2
    · exact bestGroupNode_mem hnames

variable {st st' : Search} {name : String} {service : Service}

theorem settled_placeSingleton (h : st.InNames top s)
    (hst : placeSingleton top opts s nominal front name pin service st = .ok st') :
    st'.InNames top s := by
  rw [placeSingleton] at hst
  split at hst
  · cases hst
  · rename_i node hnode
    cases hst
    exact ⟨h.groups, h.services.insert (serviceNode_mem hnode), h.replicas⟩

theorem settled_placeReplica {replica : ServiceReplica} (h : st.InNames top s)
    (hst : placeReplica top opts s nominal front name pin service st replica = .ok st') :
    st'.InNames top s := by
  simp only [placeReplica] at hst
  split at hst
  · cases hst
  · rename_i node hnode
    cases hst
    refine ⟨h.groups, ?_, h.replicas.insert (serviceNode_mem hnode)⟩
    split_ifs
    · exact h.services.insert (serviceNode_mem hnode)
    · exact h.services

theorem settled_placeService {pinned : Table String String} (h : st.InNames top s)
    (hst : placeService top opts s nominal front pinned st name = .ok st') : st'.InNames top s := by
  rw [placeService] at hst
  split at hst
  · cases hst
    exact h
  · split_ifs at hst
    · exact settled_placeSingleton h hst
    · exact foldlM_keeps (fun _ _ _ => settled_placeReplica) h hst

theorem placeASes_keeps {strategy : String} {pinned : Table Int String} (h : st.InNames top s)
    (hst : placeASes top opts s strategy front pinned st = .ok st') : st'.InNames top s := by
  have hplaceAS : ∀ {st : Search} {weight : Table Int Resources} {asn : Int} {n : String},
      st.InNames top s → (st.placeAS weight asn n).InNames top s :=
    fun h => ⟨h.groups, h.services, h.replicas⟩
  obtain ⟨st₁, hpinned, hst⟩ := exists_of_bind hst
  have h₁ : st₁.InNames top s := by
    refine foldlM_keeps (fun st asn st' h hst => ?_) h hpinned
    rw [placePinned] at hst
    split at hst
    · cases hst
      exact h
    · split_ifs at hst
      cases hst
      exact hplaceAS h
  split_ifs at hst
  obtain ⟨st₂, hfree, hst⟩ := exists_of_bind hst
  have h₂ : st₂.InNames top s := by
    refine foldlM_keeps (fun st asn st' h hst => ?_) h₁ hfree
    rw [placeFree] at hst
    split at hst
    · cases hst
    · cases hst
      exact hplaceAS h
  cases hst
  exact ⟨h₂.groups, h₂.services, h₂.replicas⟩

theorem fixedGroups_mem (opts : Options) (s : CapacityState) (groups : List PlacementGroup) :
    Among (fun _ n => n ∈ s.names) (fixedGroups opts s groups) := by
  rw [fixedGroups]
  cases opts.record with
  | none => exact among_empty
  | some fixed =>
    refine foldlRecOn groups _ among_empty fun t h g _ => ?_
    cases hlook : fixed.byGroup.lookup g.id with
    | none => simpa only [hlook] using h
    | some n =>
      by_cases hn : n ∈ s.names
      · simpa only [hlook, if_pos hn] using h.insert hn
      · simpa only [hlook, if_neg hn] using h

theorem settled_placeGroup (h : st.InNames top s) {g : PlacementGroup} (hg : GroupOf top g.id)
    (hn : n ∈ s.names) : (st.placeGroup top g n).InNames top s :=
  ⟨h.groups.insert ⟨hg, hn⟩, h.services, h.replicas⟩

variable {fixed : Table String String} {asn : Int}

theorem settled_placeAnchors (hfixed : Among (fun _ n => n ∈ s.names) fixed)
    {groups : List PlacementGroup} (hgroups : ∀ g ∈ groups, GroupOf top g.id) {anchor : String}
    (hanchor : anchor ∈ s.names)
    (h : st.InNames top s) : (placeAnchors top fixed asn groups anchor st).InNames top s := by
  induction groups generalizing anchor st with
  | nil => exact ⟨h.groups, h.services, h.replicas⟩
  | cons g groups ih =>
    have hn : (fixed.lookup g.id).getD anchor ∈ s.names := by
      cases hlook : fixed.lookup g.id with
      | none => exact hanchor
      | some n => exact hfixed g.id n hlook
    exact ih (fun g' hg' => hgroups g' (mem_cons_of_mem _ hg')) hn
      (settled_placeGroup h (hgroups g (mem_cons_self ..)) hn)

theorem settled_placeLeaves (hnames : s.names ≠ [])
    (hfixed : Among (fun _ n => n ∈ s.names) fixed) {leaves : List PlacementGroup}
    (hleaves : ∀ g ∈ leaves, GroupOf top g.id) (h : st.InNames top s) :
    (leaves.foldl (placeLeaf top s nominal fixed) st).InNames top s := by
  refine foldlRecOn leaves _ h fun st h g hg => settled_placeGroup h (hleaves g hg) ?_
  split
  · rename_i n hlook
    exact hfixed g.id n hlook
  · exact bestGroupNode_mem hnames

theorem mem_anchorsAndLeaves (groups : List PlacementGroup) :
    (∀ g ∈ (anchorsAndLeaves groups).1, g ∈ groups) ∧
      ∀ g ∈ (anchorsAndLeaves groups).2, g ∈ groups := by
  simp only [anchorsAndLeaves]
  split_ifs
  · exact ⟨fun g hg => mem_of_mem_take hg, fun g hg => mem_of_mem_drop hg⟩
  · exact ⟨fun g hg => mem_of_mem_filter hg, fun g hg => mem_of_mem_filter hg⟩

theorem settled_distributeGroups (hnames : s.names ≠ []) {explicit : Table Int String}
    (h : st.InNames top s) (hst : distributeGroups top opts s nominal explicit st asn = .ok st') :
    st'.InNames top s := by
  rw [distributeGroups] at hst
  split at hst
  · cases hst
    exact h
  · rename_i as has
    simp only at hst
    split_ifs at hst with hwhole hanchor
    · cases hst
      exact h
    · cases hst
      push Not at hanchor
      have hfixed := fixedGroups_mem opts s as.sortedPlacementGroups
      have hgroups : ∀ g ∈ as.sortedPlacementGroups, GroupOf top g.id := fun g hg =>
        ⟨asn, as, has, by simp at hwhole; exact hwhole.1.1.1,
          g, (mem_insertionSort _).mp hg, rfl⟩
      have hsplit := mem_anchorsAndLeaves as.sortedPlacementGroups
      exact settled_placeLeaves hnames hfixed (fun g hg => hgroups g (hsplit.2 g hg))
        (settled_placeAnchors hfixed (fun g hg => hgroups g (hsplit.1 g hg)) hanchor.2 h)

theorem settled_assignNodes
    (h : assignNodes top opts s front = .ok a) : Settled top (· ∈ s.names) a := by
  rw [assignNodes] at h
  split_ifs at h with hnames
  split at h
  · cases h
  · obtain ⟨st, hservices, h⟩ := exists_of_bind h
    have h₁ : st.InNames top s := foldlM_keeps (fun _ _ _ => settled_placeService)
      ⟨among_empty, among_empty, among_empty⟩ hservices
    obtain ⟨st₂, hases, h⟩ := exists_of_bind h
    have h₂ := placeASes_keeps h₁ hases
    rw [distributePlacementGroups] at h
    split_ifs at h
    · cases h
      exact h₂
    · have hstart : Search.InNames top s
        ⟨st₂.assignment, placementDemands top st₂.assignment s.baseline⟩ := h₂
      obtain ⟨st₃, hrun, h⟩ := exists_of_bind (f := fun st : Search => .ok st.assignment) h
      cases h
      exact foldlM_keeps (fun _ _ _ => settled_distributeGroups hnames) hstart hrun

end Names

section Assigned

variable {top : Topology} {opts : Options}

/-- A node is one of the lab's. -/
def Declared (top : Topology) (node : String) : Prop := (top.lab.nodeByName node).isSome = true

theorem declared_of_mem_nodes {n : NodeSpec} (h : n ∈ top.lab.nodes) : Declared top n.name := by
  rw [Declared, Lab.nodeByName, find?_isSome]
  exact ⟨n, h, by simp⟩

theorem declared_frontNode (h : top.lab.nodes ≠ []) : Declared top top.lab.frontNode := by
  rw [Lab.frontNode]
  split
  · rename_i n hn
    exact declared_of_mem_nodes (mem_of_find?_eq_some hn)
  · split
    · rename_i n rest hnodes
      exact declared_of_mem_nodes (by rw [hnodes]; exact mem_cons_self ..)
    · rename_i hnodes
      exact absurd hnodes h

theorem declared_availableFront (h : availableFront top opts = some front) :
    Declared top front := by
  simp only [availableFront] at h
  split_ifs at h with husable
  · cases h
    rw [Bool.and_eq_true, Lab.nodeInPool] at husable
    rw [Declared]
    cases hnode : top.lab.nodeByName top.lab.frontNode with
    | none =>
      rw [hnode] at husable
      nomatch husable.2
    | some node => rfl
  · obtain ⟨n, hn, rfl⟩ := Option.map_eq_some_iff.mp h
    exact declared_of_mem_nodes (mem_of_find?_eq_some hn)

theorem settled_assignSingleNode (h : Declared top front) :
    Settled top (Declared top) (assignSingleNode top front) := by
  refine ⟨among_empty, among_empty.foldl_insert _ (fun _ => h) _, ?_⟩
  exact foldlRecOn _ _ among_empty fun t ht name _ => ht.foldl_insert _ (fun _ => h) _

theorem settled_assignByStrategy (hfront : Declared top front)
    (h : assignByStrategy top opts front = .ok a) : Settled top (Declared top) a := by
  rw [assignByStrategy] at h
  split_ifs at h
  · cases h
    exact settled_assignSingleNode hfront
  · have hsettled := settled_assignNodes h
    have hnames : ∀ n ∈ (buildCapacityState top opts).names, Declared top n := fun n hn =>
      nodeByName_of_candidate (names_subset hn)
    exact ⟨hsettled.groups.mono fun _ n hn => ⟨hn.1, hnames n hn.2⟩,
      hsettled.services.mono fun _ => hnames, hsettled.replicas.mono fun _ => hnames⟩

/-- What `assign` hands out under strict admission was admitted, and has every group
    and every service on a node of the lab. -/
theorem assign_admitted (hadmission : opts.admission = true) (h : assign top opts = .ok a) :
    top.lab.nodes ≠ [] ∧ strictAssignmentError top a (buildCapacityState top opts) = none ∧
      Settled top (Declared top) a := by
  rw [assign] at h
  split_ifs at h with hnodes
  split at h
  · cases h
  · rename_i front hfront
    obtain ⟨a₀, hsearch, h⟩ := exists_of_bind h
    have hsettled := settled_assignByStrategy (declared_availableFront hfront) hsearch
    simp only [admitChecked, hadmission, if_true] at h
    cases hrefused : strictAssignmentError top a₀ (buildCapacityState top opts) with
    | some err => simp [hrefused] at h
    | none =>
      simp only [hrefused, Except.ok.injEq] at h
      subst h
      exact ⟨hnodes, hrefused, hsettled⟩

end Assigned

end Place

end Twinet
