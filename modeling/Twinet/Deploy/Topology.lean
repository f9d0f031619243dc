import Mathlib.Data.List.Sort

/-!
# Topology

The devices and cables of a lab as a deployment sees them: where each device
is placed, who operates it, and which devices a cable joins.

A cable between two devices of one node is a veth pair, which exists as a
whole or not at all. A cable between two nodes hangs off a shared overlay, and
each node owns its own half.

## Main definitions

* `Topology`: The devices and cables of a lab.
* `localRewirePeers`, `affected`: The devices a rewire disturbs.

## Theorems

* `Topology.eq_of_id`, `Topology.eq_of_linkId`: Devices and links are known by
  their identities.
* `affected_nodup`: A rewire affects each device once.
-/

namespace Twinet

namespace Deploy

open List

inductive DeviceKind where
  | router
  | host
  | switch
  | service
  | p4
  | controller
deriving DecidableEq, Repr

inductive ASRole where
  | student
  | staff
  | ixp
deriving DecidableEq, Repr

structure Device where
  id : String
  kind : DeviceKind
  /-- Zero for the services of the whole lab. -/
  asn : Int
  image : String
  node : String
deriving DecidableEq, Repr

structure Link where
  id : String
  a : Device
  b : Device
  vni : Nat
deriving DecidableEq, Repr

structure Topology where
  name : String
  hash : String
  devices : List Device
  links : List Link
  role : Int → Option ASRole
  /-- Devices are kept in a map by their identity. -/
  distinct : (devices.map (·.id)).Nodup
  distinctLinks : (links.map (·.id)).Nodup
  /-- Every link is given a VNI of its own. -/
  distinctVni : (links.map (·.vni)).Nodup
  /-- The ends of a cable are devices of the lab. -/
  endpoints : ∀ l ∈ links, l.a ∈ devices ∧ l.b ∈ devices

section

variable (l : Link) (top : Topology) (node : String) (d : Device)

def studentOwned : Bool :=
  top.role d.asn == some .student

def Topology.devicesOnNode : List Device :=
  (top.devices.insertionSort (fun x y => x.id ≤ y.id)).filter (·.node == node)

def Link.crossNode : Bool := l.a.node != l.b.node

/-- One end of the cable is on the device. -/
def Link.touches : Bool := l.a.id == d.id || l.b.id == d.id

/-- One end of the cable is on the node. -/
def Link.onNode : Bool := l.a.node == node || l.b.node == node

/-- The device at the other end. -/
def Link.other : Device := if l.a.id = d.id then l.b else l.a

/-- The neighbours collected from the cables seen so far. -/
def collectPeer (peers : List Device) (l : Link) : List Device :=
  let peer := l.other d
  if !l.touches d || l.crossNode || !l.onNode node then peers
  else if peer.id = d.id ∨ peer.node ≠ node ∨ peers.any (·.id == peer.id) then peers
  else peers ++ [peer]

/-- The devices on this node whose interfaces a rewire of `d` destroys and
    builds again. -/
def localRewirePeers : List Device :=
  (top.links.foldl (collectPeer node d) []).insertionSort (fun x y => x.id ≤ y.id)

/-- The device of a rewire and its neighbours, in the order they are handled. -/
def affected : List Device :=
  d :: localRewirePeers top node d

end

variable {d : Device} {node : String}

theorem collectPeer_nodup {peers : List Device} (l : Link) (h : ((d :: peers).map (·.id)).Nodup) :
    ((d :: collectPeer node d peers l).map (·.id)).Nodup := by
  unfold collectPeer
  simp only
  split_ifs with hskip hpeer
  · exact h
  · exact h
  · simp only [not_or, any_eq_true, beq_iff_eq, not_exists, not_and] at hpeer
    obtain ⟨hself, -, hseen⟩ := hpeer
    simp only [map_cons, nodup_cons, map_append, mem_append, mem_map,
      map_nil, mem_singleton, nodup_append] at h ⊢
    refine ⟨?_, h.2, by simp, ?_⟩
    · rintro (⟨x, hx, heq⟩ | heq)
      · exact h.1 ⟨x, hx, heq⟩
      · exact hself heq.symm
    · rintro _ ⟨x, hx, rfl⟩ _ rfl heq
      exact hseen x hx heq

theorem foldl_collectPeer_nodup (links : List Link) :
    ∀ peers : List Device, ((d :: peers).map (·.id)).Nodup →
      ((d :: links.foldl (collectPeer node d) peers).map (·.id)).Nodup := by
  induction links with
  | nil => exact fun _ h => h
  | cons l rest ih => exact fun peers h => ih _ (collectPeer_nodup l h)

variable {top : Topology}

/-- An identity names one device. -/
theorem Topology.eq_of_id {x : Device} (hd : d ∈ top.devices) (hx : x ∈ top.devices)
    (h : d.id = x.id) : d = x :=
  inj_on_of_nodup_map top.distinct hd hx h

theorem Topology.mem_devicesOnNode :
    d ∈ top.devicesOnNode node ↔ d ∈ top.devices ∧ d.node = node := by
  simp [Topology.devicesOnNode]

/-- An identity names one link. -/
theorem Topology.eq_of_linkId {l k : Link} (hl : l ∈ top.links) (hk : k ∈ top.links)
    (h : l.id = k.id) : l = k :=
  inj_on_of_nodup_map top.distinctLinks hl hk h

/-- A rewire handles each device once. -/
theorem affected_nodup (top : Topology) (node : String) (d : Device) :
    ((affected top node d).map (·.id)).Nodup := by
  have hperm : (affected top node d).Perm (d :: top.links.foldl (collectPeer node d) []) :=
    (perm_insertionSort _ _).cons d
  exact (hperm.map _).nodup_iff.mpr (foldl_collectPeer_nodup top.links [] (by simp))

def routerOne : Device :=
  { id := "as1/R1", kind := .router, asn := 1, image := "frr", node := "n1" }

def routerTwo : Device :=
  { id := "as1/R2", kind := .router, asn := 1, image := "frr", node := "n1" }

/-- Two routers of one student group, joined by a cable on one node. -/
def cabledPair : Topology :=
  { name := "lab", hash := "h", devices := [routerOne, routerTwo]
    links := [{ id := "as1/R1:e0|as1/R2:e0", a := routerOne, b := routerTwo, vni := 1 }]
    role := fun n => if n = 1 then some .student else none
    distinct := by decide
    distinctLinks := by decide
    distinctVni := by decide
    endpoints := by decide }

end Deploy

end Twinet
