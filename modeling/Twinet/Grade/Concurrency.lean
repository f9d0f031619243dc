import Mathlib.Algebra.Order.Group.Int
import Mathlib.Data.List.Dedup
import Mathlib.Data.List.Sort
import Twinet.Lib.Strings
import Twinet.Lib.Table

/-!
# Planned Concurrency

How many systems of a lab may be graded at once. Grading a system runs commands on the
nodes that hold its devices, and every node says how many commands it admits. Besides,
a router answers only so many readers at a time.

`planConcurrency` derives from the footprints of the systems what each of them needs on
each node, and from what the nodes advertise how much of it there is. No system needs
more on a node than there is, so that one at a time can always be graded. The width it
reports is how many of the systems fit at once when they are taken in their order.

A node that cannot be asked is taken to admit what one batch of commands needs.

## Main definitions

* `RunFootprint.demandOn`: What grading a system takes on a node.
* `planConcurrency`: The plan.
* `simulate`: How many systems fit at once.
* `Sane`: Every system can be graded when it is alone.

## Theorems

* `NodeExecBudget.one_le_grading`: Every node admits something.
* `demandOn_bounds`: No system needs more than there is.
* `sane_planConcurrency`: The plans that are made are sane.
-/

namespace Twinet

namespace Grade

/-! ### Nodes and footprints -/

def gradingExecShareNum : Int := 1

def gradingExecShareDen : Int := 2

def agentBatchWorkers : Int := 8

def unknownNodeExecBudget : Int := agentBatchWorkers

def defaultDeviceReaders : Int := 2

/-- What one node advertises. -/
structure NodeExecBudget where
  node : String
  limit : Int
  inFlight : Int
  queued : Int
  known : Bool
deriving DecidableEq, Repr

/-- What the node admits for grading, and whether it said so itself. -/
def NodeExecBudget.grading (b : NodeExecBudget) : Int × Bool :=
  if b.known = false ∨ b.limit ≤ 0 then (unknownNodeExecBudget, false)
  else
    let usable := (b.limit * gradingExecShareNum).tdiv gradingExecShareDen - (b.inFlight + b.queued)
    (if usable < 1 then 1 else usable, true)

/-- What is read to grade a system. -/
structure RunFootprint where
  asn : Nat
  devices : List String
  routers : List String
  /-- How many of the devices are on each node. -/
  byNode : Table String Int

def nodeKey (node : String) : String := if Strings.trimSpace node = "" then "local" else node

/-- What is known about a node. Of two entries the later one counts. -/
def advertised (budgets : List NodeExecBudget) (node : String) : NodeExecBudget :=
  (budgets.reverse.find? fun b => nodeKey b.node = node).getD ⟨"", 0, 0, 0, false⟩

/-- The slots that grading a system takes on a node. A survey and the checks do not
    overlap, so the larger of the two counts. -/
def RunFootprint.demandOn (f : RunFootprint) (devices checks observation budget : Int) : Int :=
  if devices ≤ 0 then 0
  else
    let survey := min agentBatchWorkers (min observation devices)
    let total : Int := f.devices.length
    let share := if 0 < total ∧ devices < total
      then (checks * devices + total - 1).tdiv total else checks
    let share := if checks < share then checks else share
    let need := max survey share
    let need := if need < 1 then 1 else need
    if 0 < budget ∧ budget < need then budget else need

/-! ### Plans -/

structure ConcurrencyRequest where
  footprints : List RunFootprint
  budgets : List NodeExecBudget
  checkParallel : Int
  observationParallel : Int
  activeParallel : Int
  deviceReaders : Int

structure ConcurrencyPlan where
  width : Nat
  /-- The slots each system takes on each node. -/
  demand : Nat → Table String Int
  budget : String → Int
  /-- The nodes that could not be asked. -/
  unknown : List String
  footprints : List RunFootprint
  deviceLimit : Int

namespace ConcurrencyPlan

variable (p : ConcurrencyPlan)

def fits (f : RunFootprint) (free readers : String → Int) (nodes devices : Bool) : Bool :=
  (!nodes || (p.demand f.asn).entries.all fun e => e.2 ≤ free e.1) &&
    (!devices || f.routers.all fun r => readers r < p.deviceLimit)

/-- Take what a system needs. A router that is listed twice is counted twice. -/
def charge (f : RunFootprint) (free readers : String → Int) :
    (String → Int) × (String → Int) :=
  (fun node => free node - ((p.demand f.asn).lookup node).getD 0,
    fun r => readers r + (f.routers.count r : Int))

/-- Admit the systems that fit, in their order. -/
def simulateOver (nodes devices : Bool) :
    List RunFootprint → (String → Int) → (String → Int) → Nat → Nat
  | [], _, _, admitted => admitted
  | f :: rest, free, readers, admitted =>
    if p.fits f free readers nodes devices then
      simulateOver nodes devices rest (p.charge f free readers).1 (p.charge f free readers).2
        (admitted + 1)
    else simulateOver nodes devices rest free readers admitted

/-- How many systems fit at once. -/
def simulate (nodes devices : Bool) : Nat :=
  max 1 (p.simulateOver nodes devices p.footprints p.budget (fun _ => 0) 0)

end ConcurrencyPlan

variable (req : ConcurrencyRequest)

/-- The nodes of all footprints. -/
def ConcurrencyRequest.nodes : List String :=
  (req.footprints.flatMap fun f => f.byNode.keys).dedup

/-- What a node admits, if a system has devices there. -/
def ConcurrencyRequest.budget (node : String) : Int :=
  if node ∈ req.nodes then (advertised req.budgets node).grading.1 else 0

/-- The footprint of a system. Of two footprints the later one counts. -/
def footprintOf (footprints : List RunFootprint) (asn : Nat) : Option RunFootprint :=
  footprints.reverse.find? (·.asn = asn)

def planConcurrency : ConcurrencyPlan :=
  let checks := if req.checkParallel ≤ 0 then 8 else req.checkParallel
  let observation := if req.observationParallel ≤ 0 then checks else req.observationParallel
  let readers := if req.deviceReaders ≤ 0 then defaultDeviceReaders else req.deviceReaders
  let inFlight := max checks req.activeParallel
  let plan : ConcurrencyPlan :=
    { width := 0
      demand := fun asn =>
        match footprintOf req.footprints asn with
        | none => ∅
        | some f => f.byNode.filterMap fun node devices =>
          some (f.demandOn devices inFlight observation (req.budget node))
      budget := req.budget
      unknown := (req.nodes.filter fun node =>
        (advertised req.budgets node).grading.2 = false).insertionSort (· ≤ ·)
      footprints := req.footprints
      deviceLimit := readers }
  { plan with width := plan.simulate true true }

/-! ### Sane plans -/

/-- Every system can be graded when it is alone. -/
structure Sane (p : ConcurrencyPlan) : Prop where
  budget_nonneg : ∀ node, 0 ≤ p.budget node
  demand : ∀ asn node need, (p.demand asn).lookup node = some need →
    0 ≤ need ∧ need ≤ p.budget node
  deviceLimit_pos : 0 < p.deviceLimit

/-- Every node admits something. -/
theorem NodeExecBudget.one_le_grading (b : NodeExecBudget) : 1 ≤ b.grading.1 := by
  unfold grading
  by_cases hunknown : b.known = false ∨ b.limit ≤ 0
  · rw [if_pos hunknown]
    decide
  · rw [if_neg hunknown]
    simp only
    split_ifs <;> omega

/-- The demand of a system is cut to the budget. -/
theorem demandOn_bounds (f : RunFootprint) (devices checks observation : Int) {budget : Int}
    (hbudget : 1 ≤ budget) : 0 ≤ f.demandOn devices checks observation budget ∧
      f.demandOn devices checks observation budget ≤ budget := by
  unfold RunFootprint.demandOn
  by_cases hdevices : devices ≤ 0
  · rw [if_pos hdevices]
    omega
  · rw [if_neg hdevices]
    simp only
    generalize max (min agentBatchWorkers (min observation devices)) _ = need
    split_ifs <;> omega

/-- Every plan lets each system in alone. -/
theorem sane_planConcurrency : Sane (planConcurrency req) := by
  refine ⟨fun node => ?_, fun asn node need hneed => ?_, ?_⟩
  · change 0 ≤ req.budget node
    unfold ConcurrencyRequest.budget
    split_ifs
    · exact Int.le_trans (by decide) (NodeExecBudget.one_le_grading _)
    · exact le_refl _
  · simp only [planConcurrency] at hneed ⊢
    cases hfoot : footprintOf req.footprints asn with
    | none =>
      rw [hfoot] at hneed
      cases hneed
    | some f =>
      rw [hfoot] at hneed
      simp only [Table.lookup_filterMap, Option.bind_eq_some_iff, Option.some.injEq] at hneed
      obtain ⟨devices, hdevices, rfl⟩ := hneed
      -- the node is one of the footprint's, so something is admitted there
      have hnode : node ∈ req.nodes := by
        refine List.mem_dedup.mpr (List.mem_flatMap.mpr ⟨f, ?_, ?_⟩)
        · exact List.mem_reverse.mp (List.mem_of_find?_eq_some hfoot)
        · exact AList.mem_keys.mp (AList.lookup_isSome.mp (by rw [hdevices]; rfl))
      refine demandOn_bounds f _ _ _ ?_
      unfold ConcurrencyRequest.budget
      rw [if_pos hnode]
      exact NodeExecBudget.one_le_grading _
  · simp only [planConcurrency]
    split_ifs
    · decide
    · omega

end Grade

end Twinet
