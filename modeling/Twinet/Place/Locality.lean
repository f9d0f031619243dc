import Twinet.Place.Topology

/-!
# Keeping Links Local

The search for a node for each AS. Links between ASes that share a node need no
tunnel, so ASes are placed in an order in which their neighbours are known, each on
the node that keeps most of its links local among those that are not much fuller
than the emptiest, and the result is then improved by moving and swapping ASes.

Tables keyed by AS or node are read as zero, or the empty name, where they have no
entry.

## Main definitions

* `AffinityGraph`: How many links run between ASes and to services.
* `orderForLocality`: The order in which ASes are placed.
* `bestForLocality`: The node of an AS.
* `refine`: Moves and swaps that improve a placement.
-/

namespace Twinet

namespace Place

/-- The load of a node. -/
def loadAt (loads : Table String Resources) (node : String) : Resources :=
  (loads.lookup node).getD .zero

/-- The node of an AS, or the empty name. -/
def nodeAt (byAS : Table Int String) (asn : Int) : String := (byAS.lookup asn).getD ""

/-! ### Affinity -/

/-- How many links run between two ASes, from an AS to services on a node, and from
    an AS to services that have no node yet. -/
structure AffinityGraph where
  peers : Table Int (Table Int Nat)
  svc : Table Int (Table String Nat)
  legacySvc : Table Int Nat

/-- One more at a key. -/
def bump {κ : Type} [DecidableEq κ] (t : Table κ Nat) (k : κ) : Table κ Nat :=
  t.insert k ((t.lookup k).getD 0 + 1)

namespace AffinityGraph

variable (g : AffinityGraph) (asn : Int)

def peersOf : Table Int Nat := (g.peers.lookup asn).getD ∅

def addPeer (x y : Int) : AffinityGraph :=
  { g with peers := g.peers.insert x (bump (g.peersOf x) y) }

/-- A link from an AS to a device of a service. -/
def addService (service : Device) : AffinityGraph :=
  if service.node ≠ "" then
    { g with svc := g.svc.insert asn (bump ((g.svc.lookup asn).getD ∅) service.node) }
  else { g with legacySvc := bump g.legacySvc asn }

def addLink (top : Topology) (g : AffinityGraph) (l : Link) : AffinityGraph :=
  match l.a.bind top.device, l.b.bind top.device with
  | some a, some b =>
    if a.asn = b.asn then g
    else if a.asn = 0 then g.addService b.asn a
    else if b.asn = 0 then g.addService a.asn b
    else (g.addPeer a.asn b.asn).addPeer b.asn a.asn
  | _, _ => g

/-- How many links to other ASes an AS has. -/
def degree : Nat := (g.peersOf asn).values.sum

/-- How many links an AS keeps local on a node. -/
def pull (n : String) (byAS : Table Int String) (front : String) : Nat :=
  ((g.peersOf asn).entries.map fun e => if nodeAt byAS e.1 = n then e.2 else 0).sum +
    (((g.svc.lookup asn).getD ∅).lookup n).getD 0 +
    if n = front then (g.legacySvc.lookup asn).getD 0 else 0

end AffinityGraph

def buildAffinity (top : Topology) : AffinityGraph :=
  top.links.foldl (AffinityGraph.addLink top) ⟨∅, ∅, ∅⟩

/-! ### The order -/

/-- The ASes still waiting, how many links each has to those in the order, and the
    order so far. -/
structure Frontier where
  remaining : List Int
  linked : Table Int Nat
  order : List Int

/-- How many containers an AS asks for. -/
def containersOf (weight : Table Int Resources) (asn : Int) : Int :=
  (((weight.lookup asn).getD .zero).containers).toInt

/-- The highest degree comes first, then the heaviest, then the lowest number. -/
def seedBefore (g : AffinityGraph) (weight : Table Int Resources) (x y : Int) : Bool :=
  if g.degree x ≠ g.degree y then decide (g.degree y ≤ g.degree x)
  else if containersOf weight x ≠ containersOf weight y then
    decide (containersOf weight y ≤ containersOf weight x)
  else decide (x ≤ y)

namespace Frontier

/-- Put an AS into the order and count its links to those that wait. -/
def take (g : AffinityGraph) (o : Frontier) (asn : Int) : Frontier :=
  let remaining := o.remaining.filter (· ≠ asn)
  { remaining := remaining
    linked := (g.peersOf asn).entries.foldl (fun linked e =>
      if e.1 ∈ remaining then linked.insert e.1 ((linked.lookup e.1).getD 0 + e.2) else linked)
        (o.linked.erase asn)
    order := o.order ++ [asn] }

/-- The AS that is next: the one with most links into the order, then the heaviest,
    then the lowest number. Zero stands for none. -/
def next (weight : Table Int Resources) (o : Frontier) : Int :=
  (o.remaining.foldl (fun (best : Int × Nat × Int) asn =>
    let l := (o.linked.lookup asn).getD 0
    let w := containersOf weight asn
    if l = 0 then best
    else if best.1 = 0 ∨ best.2.1 < l ∨ (l = best.2.1 ∧ best.2.2 < w) ∨
        (l = best.2.1 ∧ w = best.2.2 ∧ asn < best.1) then (asn, l, w)
    else best) (0, 0, 0)).1

/-- Follow links for as long as there are any. -/
def grow (g : AffinityGraph) (weight : Table Int Resources) : Nat → Frontier → Frontier
  | 0, o => o
  | fuel + 1, o =>
    let asn := o.next weight
    if asn = 0 then o else grow g weight fuel (o.take g asn)

end Frontier

/-- Start from each seed that is left and follow its links. Every AS is taken once,
    so there are no more rounds than ASes. -/
def orderForLocality (free : List Int) (g : AffinityGraph) (weight : Table Int Resources) :
    List Int :=
  let seeds := free.insertionSort fun x y => seedBefore g weight x y = true
  (seeds.foldl (fun (o : Frontier) seed =>
    if seed ∈ o.remaining then Frontier.grow g weight free.length (o.take g seed) else o)
      ⟨free, ∅, []⟩).order

/-! ### The best node -/

/-- The largest number of containers a node can take, or an even share. -/
def nominalCapacity (s : CapacityState) (total : Nat) : Int :=
  let best := s.names.foldl (fun best n =>
    if s.has n ∧ best < (s.cap n).containers.toInt then (s.cap n).containers.toInt else best) 0
  let best := if best = 0 ∧ s.names ≠ [] then
    (((total + s.names.length - 1) / s.names.length : Nat) : Int) else best
  if best ≤ 0 then 1 else best

/-- The weights of nodes for the comparison of their pressures. -/
abbrev Weights := String → ℚ

def nodePlacementWeights (lab : Lab) : Weights := fun name =>
  match lab.nodeByName name with
  | some node => if 0 < node.placementWeight then node.placementWeight else 1
  | none => 1

/-- A node that has room: how full it would be and how many links stay local. -/
structure Candidate where
  name : String
  pressure : ℚ
  locality : Nat

/-- One candidate is better than another. -/
def Candidate.beats (c best : Candidate) : Bool :=
  decide (best.locality < c.locality ∨ (c.locality = best.locality ∧ c.pressure < best.pressure) ∨
    (c.locality = best.locality ∧ c.pressure = best.pressure ∧ c.name < best.name))

/-- The node that keeps most links local among those that have room and are not
    much fuller than the emptiest. -/
def bestForLocality (s : CapacityState) (loads : Table String Resources) (weights : Weights)
    (need : Resources) (tolerance : ℚ) (nominal : Int) (localityOf : String → Nat) :
    Option String :=
  let cands := (s.names.filter fun n => fits (loadAt loads n) need (s.cap n) (s.has n)).map fun n =>
    { name := n, locality := localityOf n
      pressure := placementPressure ((loadAt loads n).add need) (s.cap n) (s.has n) nominal
        (weights n) : Candidate }
  match cands with
  | [] => none
  | c :: rest =>
    let minP := rest.foldl (fun p c => if c.pressure < p then c.pressure else p) c.pressure
    (cands.foldl (fun best c =>
      if minP + tolerance < c.pressure then best
      else match best with
        | none => some c
        | some b => if c.beats b then some c else best) none).map (·.name)

/-! ### Moves and swaps -/

/-- What the refinement does not change. -/
structure Refinement where
  state : CapacityState
  graph : AffinityGraph
  weight : Table Int Resources
  weights : Weights
  front : String
  nominal : Int
  ceiling : ℚ

/-- A placement with its loads, and whether the round has improved it. -/
structure Refined where
  byAS : Table Int String
  loads : Table String Resources
  improved : Bool

namespace Refinement

variable (r : Refinement)

variable (p : Refined) (asn : Int)

def weightOf : Resources := (r.weight.lookup asn).getD .zero

/-- A load is possible on a node and does not make it fuller than the fullest. -/
def within (l : Resources) (n : String) : Bool :=
  fits .zero l (r.state.cap n) (r.state.has n) &&
    decide (placementPressure l (r.state.cap n) (r.state.has n) r.nominal (r.weights n) ≤
      r.ceiling + 1 / 1000000000)

/-- The node to which a move of an AS gains most, if there is one. -/
def target : String :=
  let src := nodeAt p.byAS asn
  (r.state.names.foldl (fun (best : Int × String) n =>
    let delta := (r.graph.pull asn n p.byAS r.front : Int) - r.graph.pull asn src p.byAS r.front
    if n = src ∨ delta ≤ best.1 ∨
        r.within ((loadAt p.loads n).add (r.weightOf asn)) n = false then best
    else (delta, n)) (0, "")).2

def move : Refined :=
  let src := nodeAt p.byAS asn
  let dst := r.target p asn
  if dst = "" then p
  else
    let loads := p.loads.insert src ((loadAt p.loads src).sub (r.weightOf asn))
    { byAS := p.byAS.insert asn dst
      loads := loads.insert dst ((loadAt loads dst).add (r.weightOf asn))
      improved := true }

def swap (pair : Int × Int) : Refined :=
  let (x, y) := pair
  let nx := nodeAt p.byAS x
  let ny := nodeAt p.byAS y
  if nx = ny then p
  else
    let swapped := (p.byAS.insert x ny).insert y nx
    let lx := ((loadAt p.loads nx).sub (r.weightOf x)).add (r.weightOf y)
    let ly := ((loadAt p.loads ny).sub (r.weightOf y)).add (r.weightOf x)
    if r.graph.pull x ny swapped r.front + r.graph.pull y nx swapped r.front ≤
        r.graph.pull x nx p.byAS r.front + r.graph.pull y ny p.byAS r.front then p
    else if r.within lx nx = false ∨ r.within ly ny = false then p
    else { byAS := swapped, loads := (p.loads.insert nx lx).insert ny ly, improved := true }

/-- All pairs of a list, in order. -/
def pairs : List Int → List (Int × Int)
  | [] => []
  | x :: xs => xs.map (x, ·) ++ pairs xs

/-- Rounds of moves and swaps, up to a number of them or until one changes nothing. -/
def rounds (movable : List Int) : Nat → Refined → Refined
  | 0, p => p
  | n + 1, p =>
    let p := (pairs movable).foldl r.swap
      (movable.foldl r.move { p with improved := false })
    if p.improved then rounds movable n p else p

end Refinement

/-- Improve a placement. ASes that are pinned stay. -/
def refine (s : CapacityState) (byAS : Table Int String) (g : AffinityGraph)
    (weight : Table Int Resources) (loads : Table String Resources) (weights : Weights)
    (pinned : Table Int String) (front : String) (tolerance : ℚ) (nominal : Int) :
    Table Int String × Table String Resources :=
  let movable := (byAS.keys.filter fun asn => (pinned.lookup asn).isNone).insertionSort (· ≤ ·)
  if movable.length < 2 then (byAS, loads)
  else
    let ceiling := s.names.foldl (fun c n =>
      max c (placementPressure (loadAt loads n) (s.cap n) (s.has n) nominal (weights n))) 0
    let r : Refinement := ⟨s, g, weight, weights, front, nominal, ceiling + tolerance⟩
    let p := r.rounds movable 8 ⟨byAS, loads, false⟩
    (p.byAS, p.loads)

end Place

end Twinet
