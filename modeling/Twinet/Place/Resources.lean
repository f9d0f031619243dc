import Mathlib.Algebra.Order.Field.Rat
import Twinet.Lib.Table

/-!
# Resources

What a device asks of a node and what a node has to give, in the seven dimensions
a node can run out of. Counts and sizes are machine integers of 64 bits, which
wrap; processor time and the pressures made from it are rationals.

A capacity is written with a convention. A negative value stands for a dimension
that is exhausted, zero for one that does not constrain, and a positive value is
a bound. `effectiveCapacityOf` makes it from what the manifest declares, what the
agent reports and what is reserved.

## Main definitions

* `Resources`: An amount in each dimension.
* `deviceDemand`: What a device asks for.
* `effectiveCapacityOf`: What a node has to give.
* `exceeds`, `fits`, `pressure`: Demand against capacity.

## Theorems

* `Resources.raw_add`: Dimensions other than processor time are added as machine
  integers.
-/

namespace Twinet

namespace Place

/-- The dimensions a node can run out of. -/
inductive Dimension where
  | containers
  | cpu
  | memory
  | ephemeralStorage
  | pids
  | fileDescriptors
  | netdevs
deriving DecidableEq, Repr

def Dimension.all : List Dimension :=
  [.containers, .cpu, .memory, .ephemeralStorage, .pids, .fileDescriptors, .netdevs]

/-- A reservation. `memBytes` is an older name of the memory. -/
structure Resources where
  containers : Int64
  cpus : ℚ
  memoryBytes : Int64
  memBytes : Int64
  diskBytes : Int64
  pids : Int64
  fileDescriptors : Int64
  netDevices : Int64
deriving DecidableEq

namespace Resources

def zero : Resources := ⟨0, 0, 0, 0, 0, 0, 0, 0⟩

/-- The memory under either name. -/
def memory (d : Resources) : Int64 := if d.memoryBytes ≠ 0 then d.memoryBytes else d.memBytes

def add (d o : Resources) : Resources where
  containers := d.containers + o.containers
  cpus := d.cpus + o.cpus
  memoryBytes := d.memory + o.memory
  memBytes := d.memory + o.memory
  diskBytes := d.diskBytes + o.diskBytes
  pids := d.pids + o.pids
  fileDescriptors := d.fileDescriptors + o.fileDescriptors
  netDevices := d.netDevices + o.netDevices

def sub (d o : Resources) : Resources where
  containers := d.containers - o.containers
  cpus := d.cpus - o.cpus
  memoryBytes := d.memory - o.memory
  memBytes := d.memory - o.memory
  diskBytes := d.diskBytes - o.diskBytes
  pids := d.pids - o.pids
  fileDescriptors := d.fileDescriptors - o.fileDescriptors
  netDevices := d.netDevices - o.netDevices

def empty (d : Resources) : Bool :=
  d.containers == 0 && d.cpus == 0 && d.memory == 0 && d.diskBytes == 0 && d.pids == 0 &&
    d.fileDescriptors == 0 && d.netDevices == 0

/-- The machine integer of a dimension. Processor time has none. -/
def raw : Dimension → Resources → Int64
  | .containers, d => d.containers
  | .cpu, _ => 0
  | .memory, d => d.memory
  | .ephemeralStorage, d => d.diskBytes
  | .pids, d => d.pids
  | .fileDescriptors, d => d.fileDescriptors
  | .netdevs, d => d.netDevices

/-- The amount in a dimension, as a number. -/
def amount (dim : Dimension) (d : Resources) : ℚ :=
  match dim with
  | .cpu => d.cpus
  | dim => ((raw dim d).toInt : ℚ)

end Resources

/-! ### Demands -/

/-- A quantity of bytes as it is written: not at all, in a way that cannot be read,
    or so that it means a number of bytes. -/
inductive Quantity where
  | blank
  | malformed
  | bytes (n : Int64)
deriving DecidableEq

def parseMemory : Quantity → Option Int64
  | .blank => some 0
  | .malformed => none
  | .bytes n => some n

def mebibytes (n : Int64) : Quantity := .bytes (n * 1048576)

structure ResourceRequest where
  cpus : ℚ
  memory : Quantity
  pids : Int64
  ephemeralStorage : Quantity
  disk : Quantity
  fileDescriptors : Int64
  netDevices : Int64
deriving DecidableEq

namespace ResourceRequest

def empty (r : ResourceRequest) : Bool :=
  r.cpus == 0 && r.memory == .blank && r.pids == 0 && r.ephemeralStorage == .blank &&
    r.disk == .blank && r.fileDescriptors == 0 && r.netDevices == 0

def storage (r : ResourceRequest) : Quantity :=
  if r.ephemeralStorage ≠ .blank then r.ephemeralStorage else r.disk

end ResourceRequest

/-- The kinds of devices that differ in what they ask for by default. -/
inductive DeviceKind where
  | router
  | switch
  | service
  | p4
  | controller
  | host
deriving DecidableEq, Repr

def defaultResourceRequest : DeviceKind → ResourceRequest
  | .router => ⟨1 / 25, mebibytes 128, 64, mebibytes 256, .blank, 1024, 8⟩
  | .switch => ⟨1 / 25, mebibytes 128, 512, mebibytes 128, .blank, 1024, 8⟩
  | .service => ⟨1 / 10, mebibytes 128, 512, mebibytes 256, .blank, 1024, 8⟩
  | .p4 => ⟨1 / 2, mebibytes 256, 96, mebibytes 512, .blank, 1024, 16⟩
  | .controller => ⟨1 / 4, mebibytes 128, 64, mebibytes 128, .blank, 1024, 32⟩
  | .host => ⟨1 / 50, mebibytes 64, 32, mebibytes 64, .blank, 256, 2⟩

/-- What the routing daemons beside a router ask for. -/
def frrControlResourceRequest : ResourceRequest :=
  ⟨2 / 25, mebibytes 256, 256, mebibytes 128, .blank, 1024, 0⟩

/-- A device, as far as placement reads and writes it. An AS number of zero marks a
    device of a service. -/
structure Device where
  id : String
  asn : Int
  placementGroup : String
  kind : DeviceKind
  nos : String
  requests : ResourceRequest
  cpus : ℚ
  memory : Quantity
  pids : Int64
  node : String
  runtimeClass : String
  usernsMode : String
deriving DecidableEq

def defaultNOS : String := "frr"

def Device.effectiveNOS (d : Device) : String :=
  if d.kind ≠ .router then "" else if d.nos = "" then defaultNOS else d.nos

def requestDemand (r : ResourceRequest) : Resources where
  containers := 1
  cpus := r.cpus
  memoryBytes := (parseMemory r.memory).getD 0
  memBytes := (parseMemory r.memory).getD 0
  diskBytes := (parseMemory r.storage).getD 0
  pids := r.pids
  fileDescriptors := r.fileDescriptors
  netDevices := r.netDevices

/-- The request of a device that was made before there were requests: from its
    limits, or a small one if it has none. -/
def Device.legacyRequest (d : Device) : ResourceRequest :=
  let r := defaultResourceRequest d.kind
  if 0 < d.cpus ∨ d.memory ≠ .blank ∨ 0 < d.pids then
    { r with
        cpus := if 0 < d.cpus then d.cpus else r.cpus
        memory := if d.memory ≠ .blank then d.memory else r.memory
        pids := if 0 < d.pids then d.pids else r.pids }
  else { r with cpus := 1 / 20, memory := mebibytes 64 }

/-- What a device asks of its node. A router that runs the default daemons asks for
    them too. -/
def deviceDemand (d : Device) : Resources :=
  let demand := requestDemand (if d.requests.empty then d.legacyRequest else d.requests)
  if d.kind = .router ∧ d.effectiveNOS = defaultNOS then
    demand.add (requestDemand frrControlResourceRequest)
  else demand

/-! ### Capacities -/

structure Budget where
  cpus : ℚ
  memory : Quantity
  pids : Int64
  ephemeralStorage : Quantity
  disk : Quantity
  fileDescriptors : Int64
  netDevices : Int64
  containers : Int64

def Budget.storage (b : Budget) : Quantity :=
  if b.ephemeralStorage ≠ .blank then b.ephemeralStorage else b.disk

def budgetDemand (b : Budget) : Resources where
  containers := b.containers
  cpus := b.cpus
  memoryBytes := (parseMemory b.memory).getD 0
  memBytes := (parseMemory b.memory).getD 0
  diskBytes := (parseMemory b.storage).getD 0
  pids := b.pids
  fileDescriptors := b.fileDescriptors
  netDevices := b.netDevices

/-- What an agent has observed that can be allocated, where it could tell. -/
structure Capacity where
  containers : Option Int64
  cpus : Option ℚ
  memoryBytes : Option Int64
  diskBytes : Option Int64
  pids : Option Int64
  fileDescriptors : Option Int64
  netDevices : Option Int64

/-- The report of an agent: what can be allocated, what is reserved, in all and by
    lab, and the dimensions that the kernel does not limit. -/
structure NodeInventory where
  name : String
  allocatable : Capacity
  reserved : Resources
  reservedByLab : Table String Resources
  unlimited : List Dimension

structure NodeSpec where
  name : String
  pool : String
  capacity : Option Budget
  placementWeight : ℚ
  front : Bool
  runtimeClass : String
  usernsMode : String

/-- The smaller of two sources, the one there is, or nothing. A source that
    declares nothing positive is not there. -/
def chooseBound {α : Type} [Zero α] [LT α] [DecidableLT α] (declared : α) (live : Option α) :
    Option α :=
  if 0 < declared then
    match live with
    | none => some declared
    | some live => some (if declared < live then declared else live)
  else live

/-- A negative capacity is written as minus one. -/
def clampCapacity (c : Resources) : Resources where
  containers := if c.containers < 0 then -1 else c.containers
  cpus := if c.cpus < 0 then -1 else c.cpus
  memoryBytes := if c.memory < 0 then -1 else c.memoryBytes
  memBytes := if c.memory < 0 then -1 else c.memBytes
  diskBytes := if c.diskBytes < 0 then -1 else c.diskBytes
  pids := if c.pids < 0 then -1 else c.pids
  fileDescriptors := if c.fileDescriptors < 0 then -1 else c.fileDescriptors
  netDevices := if c.netDevices < 0 then -1 else c.netDevices

/-- A capacity of zero in a dimension that is known to be limited is written as
    minus one too. -/
def markExhausted (exhausted : Dimension → Bool) (c : Resources) : Resources where
  containers := if exhausted .containers && c.containers == 0 then -1 else c.containers
  cpus := if exhausted .cpu && c.cpus == 0 then -1 else c.cpus
  memoryBytes := if exhausted .memory && c.memoryBytes == 0 then -1 else c.memoryBytes
  memBytes := if exhausted .memory && c.memoryBytes == 0 then -1 else c.memBytes
  diskBytes := if exhausted .ephemeralStorage && c.diskBytes == 0 then -1 else c.diskBytes
  pids := if exhausted .pids && c.pids == 0 then -1 else c.pids
  fileDescriptors :=
    if exhausted .fileDescriptors && c.fileDescriptors == 0 then -1 else c.fileDescriptors
  netDevices := if exhausted .netdevs && c.netDevices == 0 then -1 else c.netDevices

/-- The capacity of a node, whether any of it is known, and the dimensions of which
    nothing is. -/
def effectiveCapacityOf (n : NodeSpec) (reserve : Table String Budget)
    (inv : Option NodeInventory) : Resources × Bool × List Dimension :=
  let declared := (n.capacity.map budgetDemand).getD .zero
  let live := (inv.map (·.allocatable)).getD ⟨none, none, none, none, none, none, none⟩
  let unlimited := (inv.map (·.unlimited)).getD []
  let containers := chooseBound declared.containers live.containers
  let cpus := chooseBound declared.cpus live.cpus
  let memory := chooseBound declared.memory live.memoryBytes
  let disk := chooseBound declared.diskBytes live.diskBytes
  let pids := chooseBound declared.pids live.pids
  let fileDescriptors := chooseBound declared.fileDescriptors live.fileDescriptors
  let netDevices := chooseBound declared.netDevices live.netDevices
  let known : Dimension → Bool
    | .containers => containers.isSome
    | .cpu => cpus.isSome
    | .memory => memory.isSome
    | .ephemeralStorage => disk.isSome
    | .pids => pids.isSome
    | .fileDescriptors => fileDescriptors.isSome
    | .netdevs => netDevices.isSome
  let missing := Dimension.all.filter fun dim => !known dim && !unlimited.contains dim
  let chosen : Resources :=
    ⟨containers.getD 0, cpus.getD 0, memory.getD 0, memory.getD 0, disk.getD 0, pids.getD 0,
      fileDescriptors.getD 0, netDevices.getD 0⟩
  let left := match reserve.lookup n.name with
    | some r => chosen.sub (budgetDemand r)
    | none => chosen
  (markExhausted (fun dim => !missing.contains dim && !unlimited.contains dim)
    (clampCapacity left), Dimension.all.any known, missing)

/-! ### Room -/

/-- More is asked of a node in a dimension than it has. -/
def exceeds (dim : Dimension) (cap load : Resources) : Bool :=
  (decide (cap.amount dim < 0) && decide (0 < load.amount dim)) ||
    (decide (0 < cap.amount dim) && decide (cap.amount dim < load.amount dim))

/-- A node has room for more. -/
def fits (load need cap : Resources) (has : Bool) : Bool :=
  !has || Dimension.all.all fun dim =>
    !(decide (cap.amount dim < 0) && decide (0 < need.amount dim)) &&
      !(decide (0 < cap.amount dim) && decide (cap.amount dim < (load.add need).amount dim))

/-- How full a node is, in its fullest dimension. -/
def pressure (load cap : Resources) (has : Bool) (nominal : Int) : ℚ :=
  if !has then load.amount .containers / (if nominal ≤ 0 then 1 else nominal)
  else Dimension.all.foldl (fun worst dim =>
    if 0 < cap.amount dim then max worst (load.amount dim / cap.amount dim) else worst) 0

def placementPressure (load cap : Resources) (has : Bool) (nominal : Int) (weight : ℚ) : ℚ :=
  pressure load cap has nominal / (if weight ≤ 0 then 1 else weight)

namespace Resources

theorem memory_add (d o : Resources) : (d.add o).memory = d.memory + o.memory := by
  simp only [memory, add]
  split_ifs <;> rfl

/-- Dimensions are added as machine integers. -/
theorem raw_add (dim : Dimension) (d o : Resources) :
    raw dim (d.add o) = raw dim d + raw dim o := by
  cases dim with
  | memory => exact memory_add d o
  | cpu | containers | ephemeralStorage | pids | fileDescriptors | netdevs => rfl

theorem amount_of_ne_cpu {dim : Dimension} (h : dim ≠ .cpu) (d : Resources) :
    d.amount dim = ((raw dim d).toInt : ℚ) := by
  cases dim with
  | cpu => exact absurd rfl h
  | _ => rfl

theorem amount_zero (dim : Dimension) : zero.amount dim = 0 := by
  cases dim <;> rfl

end Resources

end Place

end Twinet
