import Twinet.Agent.Phases

/-!
# The Lineage of a Lab

A deployment leaves what it does not touch as it is, so the objects of a lab carry
the generations of many earlier deployments. An agent keeps the generations a lab
has been at, and refuses to commit an inventory with an object of any other.

The check is made by a commit. A recovery records the inventory its transaction
found when it was prepared, and nothing checks that one.

What the check reads of the records is the `Lineage` of the lab. Every action takes
one of few turns as far as it goes.

## Main definitions

* `validateInventoryLineage`: The check of a commit.
* `lineages`: The requests for a lab as a machine, with the check.
* `LineageTurn`: All that one action can do to the lineage.

## Theorems

* `Records.validateInventoryLineage_eq_none_iff`: What the check accepts.
* `lineageTurn_of_step`: An action takes such a turn.
-/

namespace Twinet

namespace Agent

open JournaledTransaction Option List

/-! ### The check -/

/-- Why an inventory is refused. -/
inductive LineageError where
  | container (name generation : String)
  | overlay (vni : Nat) (generation : String)
deriving DecidableEq, Repr

namespace Records

variable (r : Records) (lab : String)

/-- A generation that is not the current one, the committed one or an ancestor. An
    object from before there were labels carries the empty one. -/
def unrelated (current generation : String) : Bool :=
  generation ≠ "" && !(generation = current || generation = (r.generation lab).committed ||
    (r.generation lab).ancestors.contains generation)

/-- The generation an overlay goes back to, or the empty one. -/
def overlayGeneration (vni : Nat) : String :=
  (((r.overlayLineage.lookup lab).getD ∅).lookup vni).getD ""

/-- The first object of an inventory that carries an unrelated generation. -/
def validateInventoryLineage (inventory : Inventory) (current : String) : Option LineageError :=
  match inventory.containers.find? fun container =>
      r.unrelated lab current container.generation with
  | some container => some (.container container.name container.generation)
  | none =>
    (inventory.vnis.find? fun vni =>
      r.unrelated lab current (r.overlayGeneration lab vni)).map fun vni =>
        .overlay vni (r.overlayGeneration lab vni)

end Records

open Records

/-- Why no generation is expected of a device. -/
inductive ObjectError where
  | notInPrestate (deviceID : String)
  | changedIdentity (deviceID : String)
deriving DecidableEq, Repr

section

variable (tx : JournaledTransaction) (touched : List String)

/-- The generation a device is expected to carry: that of the transaction if it was
    touched, and otherwise the one it had. -/
def expectedObjectGeneration (deviceID name spec : String)
    (prestate observed : Table String TransactionContainer) : Except ObjectError String :=
  if deviceID ∈ touched then .ok tx.generation
  else if tx.touchedKnown then
    match prestate.lookup deviceID with
    | none => .error (.notInPrestate deviceID)
    | some before =>
      if before.name ≠ name ∨ before.spec ≠ spec then .error (.changedIdentity deviceID)
      else .ok before.generation
  else
    -- A transaction from before touched devices were noted goes by what is there.
    match (observed.lookup deviceID).filter fun prior => prior.name = name && prior.spec = spec with
    | some prior => .ok prior.generation
    | none =>
      match (prestate.lookup deviceID).filter
        fun before => before.name = name && before.spec = spec with
      | some before => .ok before.generation
      | none => .ok tx.generation

/-- The containers under the devices they belong to. -/
def byDevice (containers : List TransactionContainer) : Table String TransactionContainer :=
  containers.foldl (fun table container => table.insert container.deviceID container) ∅

/-- A device of the topology, with its container's name and its specification. -/
structure ExpectedDevice where
  id : String
  container : String
  spec : String

def expectedContainer (observed : List TransactionContainer) (device : ExpectedDevice) :
    Except ObjectError TransactionContainer :=
  (expectedObjectGeneration tx touched device.id device.container device.spec
    (byDevice tx.prestate.containers) (byDevice observed)).map fun generation =>
      { name := device.container, deviceID := device.id, spec := device.spec
        generation := generation }

/-- The containers a commit expects of the devices on its node. -/
def expectedContainers (observed : List TransactionContainer) (devices : List ExpectedDevice) :
    Except ObjectError (List TransactionContainer) :=
  devices.mapM (expectedContainer tx touched observed)

end

/-! ### The machine -/

/-- One request for the lab. A commit has its inventory checked before it records it. -/
def lineageStep (lab : String) (d : GenerationNode) :
    GenerationAction → GenerationNode × List Moment
  | .commitEnd fence generation (some inventory) ok =>
    match d.records.validateInventoryLineage lab inventory generation with
    | some _ => ({ d with committing := d.committing.erase (fence, generation) }, [])
    | none => generationStep lab d (.commitEnd fence generation (some inventory) ok)
  | .commitForward fence generation (some inventory) ok =>
    match d.records.validateInventoryLineage lab inventory generation with
    | some _ => (d, [])
    | none => generationStep lab d (.commitForward fence generation (some inventory) ok)
  | a => generationStep lab d a

/-- The requests for a lab as a machine, with the check. -/
def lineages (lab : String) : Machine GenerationNode GenerationAction Moment := ⟨lineageStep lab⟩

/-- A node that has recorded nothing. -/
def GenerationNode.blank (now : Time) : GenerationNode where
  records := ⟨∅, ∅, ∅, ∅, ∅, ∅, ∅, ∅⟩
  now := now
  committing := []

/-! ### What the check reads -/

/-- The generations of a lab and of its objects. -/
structure Lineage where
  committed : String
  ancestors : List String
  inventory : Option Inventory
  overlays : Table Nat String
  origin : Option Origin

namespace Lineage

def Allows (v : Lineage) (current generation : String) : Prop :=
  generation = current ∨ generation = v.committed ∨ generation ∈ v.ancestors

/-- Every object of the inventory that carries a generation carries a known one. -/
def Accepts (v : Lineage) (current : String) (inventory : Inventory) : Prop :=
  (∀ container ∈ inventory.containers,
    container.generation = "" ∨ v.Allows current container.generation) ∧
  ∀ vni ∈ inventory.vnis, ∀ generation, v.overlays.lookup vni = some generation →
    generation = "" ∨ v.Allows current generation

/-- A list of containers that carry the lab's own generations. -/
def Knows (v : Lineage) (containers : List TransactionContainer) : Prop :=
  ∀ container ∈ containers, container.generation = "" ∨ container.generation ∈ v.ancestors

end Lineage

namespace Records

/-- The lineage of a lab in the records. -/
def lineage (r : Records) (lab : String) : Lineage where
  committed := (r.generation lab).committed
  ancestors := (r.generation lab).ancestors
  inventory := r.inventories.lookup lab
  overlays := (r.overlayLineage.lookup lab).getD ∅
  origin := (r.transactions.lookup lab).map origin

variable (r : Records)

theorem unrelated_eq_false_iff (lab current generation : String) :
    r.unrelated lab current generation = false ↔
      generation = "" ∨ (r.lineage lab).Allows current generation := by
  by_cases hempty : generation = ""
  · simp [unrelated, hempty]
  · simp [unrelated, hempty, Lineage.Allows, lineage, or_iff_not_imp_left]

theorem overlayGeneration_related_iff (lab current : String) (vni : Nat) :
    r.unrelated lab current (r.overlayGeneration lab vni) = false ↔
      ∀ generation, (r.lineage lab).overlays.lookup vni = some generation →
        generation = "" ∨ (r.lineage lab).Allows current generation := by
  have hoverlays : (r.lineage lab).overlays = (r.overlayLineage.lookup lab).getD ∅ := rfl
  rw [unrelated_eq_false_iff, overlayGeneration, ← hoverlays]
  cases (r.lineage lab).overlays.lookup vni with
  | none | some generation => simp

/-- The check accepts an inventory exactly if every generation in it is the current one,
    the committed one or an ancestor. -/
theorem validateInventoryLineage_eq_none_iff (lab : String) (inventory : Inventory)
    (current : String) :
    r.validateInventoryLineage lab inventory current = none ↔
      (r.lineage lab).Accepts current inventory := by
  have hnone : r.validateInventoryLineage lab inventory current = none ↔
      (∀ container ∈ inventory.containers,
        r.unrelated lab current container.generation = false) ∧
      ∀ vni ∈ inventory.vnis, r.unrelated lab current (r.overlayGeneration lab vni) = false := by
    unfold validateInventoryLineage
    cases hcontainer : inventory.containers.find? fun container =>
        r.unrelated lab current container.generation with
    | some container =>
      have hmem := mem_of_find?_eq_some hcontainer
      have hunrelated := find?_some hcontainer
      exact iff_of_false (by simp) fun h => by
        rw [h.1 container hmem] at hunrelated
        cases hunrelated
    | none =>
      have hcontainers := find?_eq_none.mp hcontainer
      rw [and_iff_right fun container hmem => eq_false_of_ne_true (hcontainers container hmem)]
      rw [map_eq_none_iff, find?_eq_none]
      exact forall₂_congr fun vni _ => by rw [Bool.not_eq_true]
  rw [hnone]
  exact and_congr (forall₂_congr fun container _ => unrelated_eq_false_iff r lab current _)
    (forall₂_congr fun vni _ => overlayGeneration_related_iff r lab current vni)

end Records

/-! ### What one action does -/

/-- The generations committed, with one more moment. -/
def Moment.extend (committed : List String) : Moment → List String
  | .committed _ generation => committed ++ [generation]
  | .carried generation => committed ++ [generation]
  | .destroyed => []
  | _ => committed

/-- The generations committed since the lab was last destroyed, oldest first. -/
def committedGenerations (history : List Moment) : List String :=
  history.foldl Moment.extend []

/-- Moments at which no generation is committed and nothing is destroyed. -/
def Plain (moments : List Moment) : Prop :=
  ∀ m ∈ moments, ∀ committed, m.extend committed = committed

/-- A recovery that ends puts back the inventory its transaction found. -/
def Restores (lab : String) (d : GenerationNode) (a : GenerationAction)
    (inventory : Inventory) : Prop :=
  ∃ fence ok tx, a = .finishRecovered fence tx.generation ok ∧
    fenceError d.records.server lab fence d.now = none ∧
    d.records.transactions.lookup lab = some tx ∧ tx.prestate = inventory

/-- The inventory a commit is given. -/
def GenerationAction.inventory : GenerationAction → Option Inventory
  | .commitEnd _ _ inventory _ => inventory
  | .commitForward _ _ inventory _ => inventory
  | _ => none

/-- All that one action can do to the lineage of a lab. -/
inductive LineageTurn (lab : String) (d : GenerationNode) (a : GenerationAction) (v : Lineage) :
    Lineage → List Moment → Prop
  | stay (origin : Option Origin) (moments : List Moment) :
      origin = none ∨ origin = v.origin → Plain moments →
      LineageTurn lab d a v { v with origin := origin } moments
  | prepared (o : Origin) (moments : List Moment) :
      o.generation ≠ "" → o.previousGen = v.committed → Plain moments →
      LineageTurn lab d a v { v with origin := some o } moments
  | committed (o : Origin) (overlays : Table Nat String) (m : Moment) :
      v.origin = some o →
      (∀ i, a.inventory = some i → v.Accepts o.generation i) →
      (∀ vni generation, overlays.lookup vni = some generation →
        generation = o.generation ∨ v.overlays.lookup vni = some generation) →
      (∀ committed, m.extend committed = committed ++ [o.generation]) →
      LineageTurn lab d a v
        { committed := o.generation
          ancestors := appendGenerationLineage v.ancestors v.committed o.generation
          inventory := a.inventory.or v.inventory
          overlays := overlays
          origin := some o } [m]
  | returned (o : Origin) (moments : List Moment) : v.origin = some o → Plain moments →
      LineageTurn lab d a v { v with committed := o.previousGen } moments
  | recovered (o : Origin) (origin : Option Origin) (moments : List Moment) :
      v.origin = some o → origin = none ∨ origin = some o → Restores lab d a o.prestate →
      Plain moments →
      LineageTurn lab d a v
        { v with committed := o.previousGen, inventory := some o.prestate, origin := origin }
        moments
  | destroyed : LineageTurn lab d a v ⟨"", [], none, ∅, none⟩ [.destroyed]

theorem plain_nil : Plain [] := nofun

theorem plain_ite {wrote : Bool} {m : Moment} (h : ∀ committed, m.extend committed = committed) :
    Plain (if wrote then [m] else []) := by
  cases wrote with
  | false => exact plain_nil
  | true => exact fun m' hm => (mem_singleton.mp hm) ▸ h

section Turns

variable {lab : String} {d : GenerationNode} {a : GenerationAction} {moments : List Moment}

theorem LineageTurn.same {v v' : Lineage} (h : v' = v)
    (hplain : Plain moments) : LineageTurn lab d a v v' moments := by
  rw [h]
  exact .stay v.origin moments (.inr rfl) hplain

namespace Records

variable (r : Records) (now : Time) (fence : Fence) (generation : String)

variable {r} in
theorem lineage_journal {tx tx' : JournaledTransaction}
    (htx : r.transactions.lookup lab = some tx) (horigin : tx'.origin = tx.origin) :
    (r.journal lab tx').lineage lab = r.lineage lab := by
  simp only [lineage, journal, AList.lookup_insert, htx, map_some, horigin]
  rfl

variable {r} in
theorem Alike.lineage {r' : Records} (h : r'.Alike lab r) : r'.lineage lab = r.lineage lab := by
  simp [Records.lineage, h.transaction, h.committed, h.ancestors, h.inventory, h.overlays]

variable {r} in
theorem Rewrites.lineage {α : Type} {change : Course → Course} {refused : GenerationError → α}
    {saved : JournaledTransaction → α} {out : Records × α}
    (h : r.Rewrites lab change refused saved out) : out.1.lineage lab = r.lineage lab := by
  rcases h with ⟨err, -, rfl⟩ | ⟨tx, tx', htx, -, horigin, rfl⟩
  · rfl
  · exact lineage_journal htx horigin

theorem lineage_uncommittedRecords {tx : JournaledTransaction}
    (htx : r.transactions.lookup lab = some tx) (inventory : Option Inventory) :
    (uncommittedRecords r lab tx generation inventory).lineage lab = r.lineage lab := by
  simp only [lineage, uncommittedRecords, Records.generation, AList.lookup_insert, lookup_putBack,
    if_true, htx, map_some, getD_some]
  rfl

theorem lookup_overlayLineageFor (tx : JournaledTransaction) (previous : Table Nat String)
    (vnis : List Nat) {vni : Nat} {origin : String}
    (h : (overlayLineageFor tx generation previous vnis).lookup vni = some origin) :
    origin = generation ∨ previous.lookup vni = some origin := by
  refine foldlRecOn (motive := fun lineage : Table Nat String => ∀ origin,
    lineage.lookup vni = some origin → origin = generation ∨ previous.lookup vni = some origin)
    vnis _ (fun origin h => by cases h) (fun lineage hlineage next _ origin horigin => ?_) origin h
  rcases Table.lookup_insert_eq_some.mp horigin with ⟨rfl, horigin⟩ | ⟨-, horigin⟩
  · split_ifs at horigin with htouched
    · exact .inl horigin.symm
    · cases hprevious : previous.lookup vni with
      | none =>
        rw [hprevious] at horigin
        exact .inl horigin.symm
      | some held =>
        simp only [hprevious] at horigin
        split_ifs at horigin
        · exact .inr (by rw [horigin])
        · exact .inl horigin.symm
  · exact hlineage origin horigin

end Records

variable {generation : String}

theorem lineageTurn_amend {fence : Fence} {ready : JournaledTransaction → Bool}
    {refusal : GenerationError} {write : JournaledTransaction → JournaledTransaction} {ok : Bool}
    (hrefusal : refusal ≠ .persist) (hwrite : ∀ tx, (write tx).origin = tx.origin)
    (hplain : Plain moments) :
    LineageTurn lab d a (d.records.lineage lab)
      ((d.records.amend d.now lab fence generation ready refusal write ok).1.lineage lab)
      moments := by
  refine .same ?_ hplain
  rcases d.records.amend_cases d.now lab fence generation ready hrefusal write ok with
    ⟨err, -, heq⟩ | ⟨tx, howned, -, heq⟩
  · rw [heq]
  · rw [heq]
    exact lineage_journal howned.lookup (hwrite tx)

theorem lineage_origin {tx : JournaledTransaction}
    (htx : d.records.transactions.lookup lab = some tx) :
    (d.records.lineage lab).origin = some tx.origin := by
  rw [lineage, htx, map_some]

theorem lineageTurn_leaves {α : Type} {wrote : α → Bool} {done : Records → Prop}
    {out : Records × α} (h : d.records.Leaves lab wrote done out) (hplain : Plain moments)
    (hdone : ∀ r', done r' →
      LineageTurn lab d a (d.records.lineage lab) (r'.lineage lab) moments) :
    LineageTurn lab d a (d.records.lineage lab) (out.1.lineage lab) moments := by
  rcases h with ⟨halike, -⟩ | ⟨-, hout⟩
  · exact .same halike.lineage hplain
  · exact hdone _ hout

variable (fence : Fence)

theorem lineageTurn_prepare (req : PrepareRequest) (ok : Bool) (hplain : Plain moments) :
    LineageTurn lab d a (d.records.lineage lab)
      ((d.records.prepareGeneration d.now lab fence req ok).1.lineage lab) moments := by
  refine lineageTurn_leaves (d.records.prepareGeneration_cases d.now lab fence req ok) hplain ?_
  rintro _ ⟨desired, -, hexpected, hdesired, -, rfl⟩
  have hnamed : req.generation ≠ "" := fun hempty => by
    simp [PrepareRequest.desiredMode, hempty] at hdesired
  convert LineageTurn.prepared (v := d.records.lineage lab)
    ⟨req.generation, req.expected, req.prestate⟩ moments hnamed hexpected.symm hplain using 1
  simp [lineage, generation, origin, PrepareRequest.transaction]

variable {inventory : Option Inventory}

theorem lineageTurn_commit (generation : String) (ha : a.inventory = inventory) (ok : Bool)
    (m : Moment) (hm : ∀ committed, m.extend committed = committed ++ [generation])
    (hcheck : ∀ i, inventory = some i → (d.records.lineage lab).Accepts generation i) :
    LineageTurn lab d a (d.records.lineage lab)
      ((d.records.finishCommittedGeneration d.now lab fence generation inventory ok).1.lineage lab)
      (if (d.records.finishCommittedGeneration d.now lab fence generation inventory ok).2.isNone
        then [m] else []) := by
  rcases d.records.finishCommittedGeneration_cases d.now lab fence generation inventory ok with
    ⟨err, -, heq⟩ | ⟨tx, howned, -, heq⟩
  · rw [heq]
    exact .same rfl plain_nil
  · have horigin := lineage_origin howned.lookup
    -- a commit that cannot be saved is undone in memory
    cases ok with
    | false =>
      simp only [heq, Bool.false_eq_true, if_false, isNone_some]
      exact .same (d.records.lineage_uncommittedRecords generation howned.lookup inventory)
        plain_nil
    | true =>
      simp only [heq, if_true, isNone_none]
      have hgen : tx.origin.generation = generation := howned.generation
      rw [← hgen, ← ha] at hcheck
      rw [← hgen] at hm
      have hcommitted := fun overlays hoverlays =>
        @LineageTurn.committed lab d a _ tx.origin overlays m horigin hcheck hoverlays hm
      rw [hgen, ha] at hcommitted
      cases inventory with
      | none =>
        convert hcommitted ((d.records.lineage lab).overlays) (fun _ _ h => .inr h) using 1
        simp [Records.lineage, Records.committedRecords, Records.generation,
          origin]
      | some inventory =>
        convert hcommitted _ (fun _ _ h =>
          Records.lookup_overlayLineageFor generation tx _ inventory.vnis h) using 1
        simp [Records.lineage, Records.committedRecords, Records.generation,
          origin]

theorem lineageTurn_finalize (generation : String) (ok : Bool) (hplain : Plain moments) :
    LineageTurn lab d a (d.records.lineage lab)
      ((d.records.finalizeCommittedGeneration d.now lab fence generation ok).1.lineage lab)
      moments := by
  refine lineageTurn_leaves
    (d.records.finalizeCommittedGeneration_cases d.now lab fence generation ok) hplain ?_
  rintro _ rfl
  convert LineageTurn.stay none moments (.inl rfl) hplain using 1
  simp [Records.lineage, Records.generation]

theorem lineageTurn_reopen (generation : String) (ok : Bool) (hplain : Plain moments) :
    LineageTurn lab d a (d.records.lineage lab)
      ((d.records.reopenCommittedTransaction d.now lab fence generation ok).1.lineage lab)
      moments := by
  refine lineageTurn_leaves
    (d.records.reopenCommittedTransaction_cases d.now lab fence generation ok) hplain ?_
  rintro _ ⟨tx, tx', htx, -, hsame, rfl⟩
  convert LineageTurn.returned tx.origin moments (lineage_origin htx) hplain using 1
  simp [Records.lineage, Records.generation, htx, hsame]
  rfl

theorem lineageTurn_finishRecovered (generation : String) (ok : Bool)
    (ha : a = .finishRecovered fence generation ok) (hplain : Plain moments) :
    LineageTurn lab d a (d.records.lineage lab)
      ((d.records.finishRecoveredGeneration d.now lab fence generation ok).1.lineage lab)
      moments := by
  refine lineageTurn_leaves
    (d.records.finishRecoveredGeneration_cases d.now lab fence generation ok) hplain ?_
  rintro _ ⟨tx, htx, rfl, hfence, rfl⟩
  have hrecovered := fun origin hkept =>
    @LineageTurn.recovered lab d a _ tx.origin origin moments (lineage_origin htx) hkept
      ⟨fence, ok, tx, ha, hfence, htx, rfl⟩ hplain
  cases ok with
  | true =>
    convert hrecovered none (.inl rfl) using 1
    simp [lineage, generation, origin]
  | false =>
    convert hrecovered (some tx.origin) (.inr rfl) using 1
    simp [lineage, generation, origin]

theorem lineageTurn_destroy (ok : Bool) :
    LineageTurn lab d a (d.records.lineage lab)
      ((d.records.finishDestroyedLab d.now lab fence ok).1.lineage lab)
      (if (d.records.finishDestroyedLab d.now lab fence ok).2.isNone
        then [.destroyed] else []) := by
  rcases d.records.finishDestroyedLab_cases d.now lab fence ok with
    ⟨halike, hnot⟩ | ⟨hwrote, hgone⟩
  · rw [hnot, if_neg (by simp)]
    exact .same halike.lineage plain_nil
  · have hlineage : (d.records.destroyedRecords lab).lineage lab = ⟨"", [], none, ∅, none⟩ := by
      simp [lineage, destroyedRecords, generation]
    rw [hwrote, hgone, hlineage]
    exact .destroyed

theorem accepts_of_passed
    (h : ∀ i, inventory = some i → d.records.validateInventoryLineage lab i generation = none) :
    ∀ i, inventory = some i → (d.records.lineage lab).Accepts generation i :=
  fun i hi => (d.records.validateInventoryLineage_eq_none_iff lab i generation).mp (h i hi)

theorem lineageTurn_commitEnd (fence : Fence) (generation : String)
    (ha : a.inventory = inventory) (ok : Bool)
    (hpassed : ∀ i, inventory = some i →
      d.records.validateInventoryLineage lab i generation = none) :
    LineageTurn lab d a (d.records.lineage lab)
      ((generationStep lab d (.commitEnd fence generation inventory ok)).1.records.lineage lab)
      (generationStep lab d (.commitEnd fence generation inventory ok)).2 := by
  simp only [generationStep]
  by_cases hmem : (fence, generation) ∈ d.committing
  · rw [if_pos hmem]
    exact lineageTurn_commit fence generation ha ok _ (fun _ => rfl) (accepts_of_passed hpassed)
  · rw [if_neg hmem]
    exact .same rfl plain_nil

/-- Every request takes one of the turns. -/
theorem lineageTurn_of_step (lab : String) (d : GenerationNode) (a : GenerationAction) :
    LineageTurn lab d a (d.records.lineage lab) ((lineageStep lab d a).1.records.lineage lab)
      (lineageStep lab d a).2 := by
  cases a with
  | leases mutations now => exact .same rfl plain_nil
  | prepare fence req ok =>
    exact lineageTurn_prepare fence req ok (plain_ite fun _ => rfl)
  | recordSolve fence generation record ok | recordTouched fence generation vnis known ok =>
    refine lineageTurn_amend ?_ ?_ plain_nil
    · simp
    · exact fun _ => rfl
  | applyStart fence generation ok | applyFinish fence generation ok
  | stateVerify fence generation ok =>
    refine lineageTurn_amend ?_ ?_ (plain_ite ?_)
    · simp
    · exact fun _ => rfl
    · exact fun _ => rfl
  | commitBegin fence generation =>
    simp only [lineageStep, generationStep]
    cases d.records.transactionForCommit d.now lab fence generation with
    | error err => exact .same rfl plain_nil
    | ok tx =>
      cases hc : tx.committed with
      | true =>
        simp only [hc, if_true]
        exact .same rfl plain_nil
      | false =>
        simp only [hc, Bool.false_eq_true, if_false]
        exact .same rfl fun m hm => (mem_singleton.mp hm) ▸ fun _ => rfl
  | commitEnd fence generation inventory ok =>
    cases inventory with
    | none => exact lineageTurn_commitEnd fence generation rfl ok fun _ h => by cases h
    | some inventory =>
      simp only [lineageStep]
      -- an inventory that is refused is not recorded
      cases hcheck : d.records.validateInventoryLineage lab inventory generation with
      | some err => exact .same rfl plain_nil
      | none =>
        exact lineageTurn_commitEnd fence generation rfl ok fun _ h => by
          cases h
          exact hcheck
  | finalize fence generation ok =>
    exact lineageTurn_finalize fence generation ok (plain_ite fun _ => rfl)
  | rollbackNeeded fence generation failure ok | rollbackFailed fence generation failure ok =>
    exact .same (markTransactionPhase_cases ..).lineage (plain_ite fun _ => rfl)
  | reopen fence generation ok =>
    exact lineageTurn_reopen fence generation ok (plain_ite fun _ => rfl)
  | beginRecovery fence generation strategy phaseLimit totalDeadline options ok =>
    exact .same (beginRecovery_cases ..).lineage (plain_ite fun _ => rfl)
  | resumeForward fence generation ok =>
    exact .same (resumeForward_cases ..).lineage (plain_ite fun _ => rfl)
  | commitForward fence generation inventory ok =>
    cases inventory with
    | none =>
      exact lineageTurn_commit fence generation rfl ok _ (fun _ => rfl)
        fun _ h => by cases h
    | some inventory =>
      simp only [lineageStep]
      cases hcheck : d.records.validateInventoryLineage lab inventory generation with
      | some err => exact .same rfl plain_nil
      | none =>
        exact lineageTurn_commit fence generation rfl ok _ (fun _ => rfl)
          (accepts_of_passed fun _ h => by
            cases h
            exact hcheck)
  | finishRecovered fence generation ok =>
    refine lineageTurn_finishRecovered fence generation ok rfl (plain_ite fun _ => ?_)
    cases ok <;> rfl
  | destroy fence ok => exact lineageTurn_destroy fence ok

end Turns

end Agent

end Twinet
