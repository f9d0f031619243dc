import Twinet.Agent.Generation

/-!
# What a Deployment Leaves in Place

A deployment that does not prune keeps what is there beside what it wants. The
inventory it records is the observed one, in which every desired container stands
as it is expected and not as it was found.

Desired containers go by their device. Of two for one device the last counts.

## Main definitions

* `mergePreservedInventory`: The inventory that is recorded.
* `Mergeable`: The two inventories fit.
* `merged`: What they make together.

## Theorems

* `mergePreservedInventory_ok_iff`: When the two inventories fit, and what they
  make together.
-/

namespace Twinet

namespace Agent

open List

/-- A container in an inventory, with the state it is in. -/
structure ListedContainer extends TransactionContainer where
  state : String
deriving DecidableEq, Repr

/-- An inventory. The `rest` is carried along and not looked at. -/
structure ListedInventory (ρ : Type) where
  topologyHash : String
  generation : String
  containers : List ListedContainer
  vnis : List UInt32
  rest : ρ
deriving DecidableEq, Repr

inductive MergeError where
  | duplicate (id : String)
  | differs (id : String) (found want : ListedContainer)
  | absent (id : String)
  | vniAbsent (vni : UInt32)
deriving DecidableEq, Repr

/-- The container that is desired for a device. -/
def desired (expected : List ListedContainer) (id : String) : Option ListedContainer :=
  expected.reverse.find? fun c => c.deviceID = id

/-- Put the desired containers in the place of the observed ones, and say which
    were seen. -/
def mergeContainers (want : String → Option ListedContainer) :
    List ListedContainer → List String → List ListedContainer →
      Except MergeError (List ListedContainer × List String)
  | out, seen, [] => .ok (out, seen)
  | out, seen, c :: rest =>
    match want c.deviceID with
    | none => mergeContainers want (out ++ [c]) seen rest
    | some w =>
      if c.deviceID ∈ seen then .error (.duplicate c.deviceID)
      else if c.name ≠ w.name ∨ c.spec ≠ w.spec then .error (.differs c.deviceID c w)
      else mergeContainers want (out ++ [w]) (c.deviceID :: seen) rest

variable {ρ : Type} (expected actual : ListedInventory ρ)

/-- The first that is missing is told; the source looks for it in no fixed order. -/
def mergePreservedInventory : Except MergeError (ListedInventory ρ) :=
  match mergeContainers (desired expected.containers) [] [] actual.containers with
  | .error err => .error err
  | .ok (containers, seen) =>
    match (expected.containers.map (·.deviceID)).find? (· ∉ seen) with
    | some id => .error (.absent id)
    | none =>
      match expected.vnis.find? (· ∉ actual.vnis) with
      | some vni => .error (.vniAbsent vni)
      | none => .ok { actual with
          generation := expected.generation, topologyHash := expected.topologyHash
          containers := containers }

/-- Every desired device is observed once, by the name and with the specification
    it is to have, and every desired overlay is there. -/
structure Mergeable : Prop where
  once : ∀ id w, desired expected.containers id = some w →
    (actual.containers.map (·.deviceID)).count id = 1
  same : ∀ c ∈ actual.containers, ∀ w, desired expected.containers c.deviceID = some w →
    c.name = w.name ∧ c.spec = w.spec
  vnis : ∀ vni ∈ expected.vnis, vni ∈ actual.vnis

/-- The observed inventory with the desired containers in their places. -/
def merged : ListedInventory ρ :=
  { actual with
    generation := expected.generation, topologyHash := expected.topologyHash
    containers := actual.containers.map fun c =>
      (desired expected.containers c.deviceID).getD c }

theorem desired_isSome {cs : List ListedContainer} {id : String} :
    (desired cs id).isSome = true ↔ id ∈ cs.map (·.deviceID) := by
  simp [desired, find?_isSome]

/-- Nothing is missing. -/
theorem find?_notMem {α : Type} [DecidableEq α] {l m : List α} :
    l.find? (fun x => decide (x ∉ m)) = none ↔ ∀ x ∈ l, x ∈ m := by
  simp

section Loop

variable {want : String → Option ListedContainer} {cs out : List ListedContainer}
  {seen : List String}

/-- The desired devices among the observed ones. -/
def wanted (want : String → Option ListedContainer) (cs : List ListedContainer) : List String :=
  (cs.map (·.deviceID)).filter fun id => (want id).isSome

/-- What is left to look at fits, after what was seen. -/
def Fits (want : String → Option ListedContainer) (seen : List String)
    (cs : List ListedContainer) : Prop :=
  (∀ c ∈ cs, ∀ w, want c.deviceID = some w → c.name = w.name ∧ c.spec = w.spec) ∧
    (wanted want cs).Nodup ∧ ∀ id ∈ wanted want cs, id ∉ seen

theorem mergeContainers_ok_iff {result : List ListedContainer × List String} :
    mergeContainers want out seen cs = .ok result ↔ Fits want seen cs ∧
      result = (out ++ cs.map (fun c => (want c.deviceID).getD c),
        (wanted want cs).reverse ++ seen) := by
  induction cs generalizing out seen with
  | nil => simp [mergeContainers, wanted, Fits, eq_comm]
  | cons c rest ih =>
    rw [mergeContainers]
    cases hw : want c.deviceID with
    | none =>
      have hwanted : wanted want (c :: rest) = wanted want rest := by simp [wanted, hw]
      have hfits : Fits want seen (c :: rest) ↔ Fits want seen rest := by
        simp [Fits, hwanted, hw]
      simp [ih, hfits, hwanted, hw]
    | some w =>
      have hwanted : wanted want (c :: rest) = c.deviceID :: wanted want rest := by
        simp [wanted, hw]
      have hfits : Fits want seen (c :: rest) ↔ (c.deviceID ∉ seen ∧
          ¬ (c.name ≠ w.name ∨ c.spec ≠ w.spec)) ∧ Fits want (c.deviceID :: seen) rest := by
        simp [Fits, hwanted, hw]
        grind
      simp only [hfits]
      split_ifs with hseen hdiff
      · simp [hseen]
      · simp [hdiff]
      · simp [ih, hseen, hdiff, hwanted, hw]

end Loop

variable {expected actual}

theorem mergeable_iff : Mergeable expected actual ↔
    Fits (desired expected.containers) [] actual.containers ∧
      (∀ id ∈ expected.containers.map (·.deviceID),
        id ∈ wanted (desired expected.containers) actual.containers) ∧
      ∀ vni ∈ expected.vnis, vni ∈ actual.vnis := by
  -- a device that is expected is counted by the filter
  have hcount : ∀ id, (desired expected.containers id).isSome = true →
      (wanted (desired expected.containers) actual.containers).count id =
        (actual.containers.map (·.deviceID)).count id := fun id hid => count_filter hid
  constructor
  · rintro ⟨honce, hsame, hvnis⟩
    have hone : ∀ id, (desired expected.containers id).isSome = true →
        (wanted (desired expected.containers) actual.containers).count id = 1 := by
      intro id hid
      obtain ⟨w, hw⟩ := Option.isSome_iff_exists.mp hid
      rw [hcount id hid, honce id w hw]
    refine ⟨⟨hsame, nodup_iff_count_le_one.mpr fun id => ?_, by simp⟩, fun id hid => ?_, hvnis⟩
    · by_cases hid : id ∈ wanted (desired expected.containers) actual.containers
      · exact le_of_eq (hone id (mem_filter.mp hid).2)
      · rw [count_eq_zero_of_not_mem hid]
        exact Nat.zero_le 1
    · refine count_pos_iff.mp ?_
      rw [hone id (desired_isSome.mpr hid)]
      exact Nat.one_pos
  · rintro ⟨⟨hsame, hnodup, -⟩, hall, hvnis⟩
    refine ⟨fun id w hw => ?_, hsame, hvnis⟩
    have hid : (desired expected.containers id).isSome = true := hw ▸ rfl
    rw [← hcount id hid]
    exact count_eq_one_of_mem hnodup (hall id (desired_isSome.mp hid))

/-- The inventories are merged exactly if they fit, and then the result is the
    observed inventory with every desired container in its place. -/
theorem mergePreservedInventory_ok_iff (expected actual out : ListedInventory ρ) :
    mergePreservedInventory expected actual = .ok out ↔
      Mergeable expected actual ∧ out = merged expected actual := by
  unfold mergePreservedInventory
  cases hloop : mergeContainers (desired expected.containers) [] [] actual.containers with
  | error err =>
    have hnot : ¬ Mergeable expected actual := fun h => by
      rw [mergeContainers_ok_iff.mpr ⟨(mergeable_iff.mp h).1, rfl⟩] at hloop
      cases hloop
    simp [hnot]
  | ok result =>
    obtain ⟨hfits, rfl⟩ := mergeContainers_ok_iff.mp hloop
    rw [mergeable_iff, ← find?_notMem, ← find?_notMem]
    simp only [hfits, true_and, append_nil, mem_reverse, nil_append]
    cases (expected.containers.map (·.deviceID)).find?
        (· ∉ wanted (desired expected.containers) actual.containers) with
    | some id => simp
    | none =>
      cases expected.vnis.find? (· ∉ actual.vnis) with
      | some vni => simp
      | none => simp [merged, eq_comm]

/-- The container of a router, with the specification it has. -/
def routerContainer (spec : String) : ListedContainer :=
  { name := "twinet-lab-r1", deviceID := "as1/R1", spec := spec, generation := "g1"
    state := "running" }

def routerInventory (generation : String) (specs : List String) : ListedInventory Unit :=
  { topologyHash := "h", generation := generation, containers := specs.map routerContainer
    vnis := [], rest := () }

/-- Of two specifications that are desired of one device only the last is looked
    for, and the result has the generation that is desired. -/
theorem first_of_two_desired_ignored :
    mergePreservedInventory (routerInventory "g2" ["old", "new"]) (routerInventory "g1" ["new"]) =
        .ok (routerInventory "g2" ["new"]) ∧
      ∀ c ∈ (routerInventory "g1" ["new"]).containers, c.spec ≠ (routerContainer "old").spec := by
  decide

end Agent

end Twinet
