import Twinet.Lib.Keyed
import Twinet.Place.Topology

/-!
# Where the Devices Run

A migration starts from where the devices run now. The placement record says so for
the devices it lists, and the live containers say so where every node answers. When
a node is silent only the record is left, and the placement is refused unless the
record has every device.

A record is asked for a device by its autonomous system or by its service, and a
missing entry of the record reads as the empty name. The refusal looks at whether a
device was asked for, not at whether a name came back. A device with an empty name
is then taken for one that has nothing to move.

## Main definitions

* `runningPlacement`: Where the devices run.
* `moves`: The devices a migration moves.
* `FailsClosed`: What is wanted of a placement.

## Theorems

* `lookup_recordedPlacement`: The loop over the devices reads the record device by
  device.
* `runningPlacement_silent`: What is returned when a node is silent.
* `mem_moves_iff`: Which devices are moved.
* `running_placement_closed_iff`: When the placement fails closed.
-/

namespace Twinet

namespace Client

open Place List AList Except

/-! ### Reading the placement -/

/-- Read a map of nodes as the source does: a missing entry is the empty name. -/
def readNode {κ : Type} [DecidableEq κ] (t : Table κ String) (k : κ) : String :=
  (t.lookup k).getD ""

/-- A container by its name and its labels for the device and the node. An absent
    label is the empty text. -/
structure LiveContainer where
  name : String
  deviceID : String
  node : String

section

variable (top : Topology)

/-- One turn of the loop that reads the record. -/
def recordDevice (record : Record) (out : Table String String)
    (device : Device) : Table String String :=
  if device.asn ≠ 0 then
    let out := if device.placementGroup ≠ "" then
      out.insert device.id (readNode record.byGroup device.placementGroup) else out
    if readNode out device.id = "" then
      out.insert device.id (readNode record.byAS device.asn)
    else out
  else
    match top.serviceByDevice device.id with
    | some (_, some replica) =>
      out.insert device.id (readNode record.byServiceReplica replica.id)
    | some (service, none) => out.insert device.id (readNode record.byService service.name)
    | none => out

/-- The placement as the record has it. -/
def recordedPlacement : Option Record → Table String String
  | none => ∅
  | some record => top.devices.foldl (recordDevice top record) ∅

variable (record : Option Record) (answers : List (Except String (List LiveContainer)))

/-- The containers of the nodes that answered, by name, and the errors of those that
    did not. -/
def containers : List LiveContainer × List String :=
  ((answers.flatMap fun
      | .ok live => live
      | .error _ => []).insertionSort (·.name ≤ ·.name),
    answers.filterMap fun
      | .ok _ => none
      | .error err => some err)

/-- One turn of the loop that reads the live containers. -/
def observeContainer (out : Table String String) (container : LiveContainer) :
    Table String String :=
  if container.deviceID ≠ "" ∧ container.node ≠ "" then
    out.insert container.deviceID container.node
  else out

/-- Where the devices run. The live containers count only if every node answered. -/
def runningPlacement : Except String (Table String String) :=
  let out := recordedPlacement top record
  match containers answers with
  | (_, err :: _) =>
    match top.devices.find? fun device => (out.lookup device.id).isNone with
    | some device => .error ("could not read running placement from every node and " ++
        "placement record has no " ++ device.id ++ " (" ++ err ++ ")")
    | none => .ok out
  | (live, []) => .ok (live.foldl observeContainer out)

/-- One turn of the loop that collects the devices to move. -/
def moveDevice (previous : Table String String) (sources : Table String (List Device))
    (device : Device) : Table String (List Device) :=
  let source := readNode previous device.id
  if source = "" ∨ source = device.node then sources
  else sources.insert source ((sources.lookup source).getD [] ++ [device])

/-- The devices a migration moves, under the nodes they come from. -/
def moves (previous : Table String String) : Table String (List Device) :=
  top.devices.foldl (moveDevice previous) ∅

/-! ### What the record says -/

/-- The name a record has for a device, with none for a device it is not asked for: one
    that belongs to no autonomous system and to no service. -/
def recordedNode (device : Device) : Option String :=
  record.bind fun record =>
    if device.asn ≠ 0 then
      if device.placementGroup ≠ "" ∧ readNode record.byGroup device.placementGroup ≠ "" then
        some (readNode record.byGroup device.placementGroup)
      else some (readNode record.byAS device.asn)
    else
      (top.serviceByDevice device.id).map fun
        | (_, some replica) => readNode record.byServiceReplica replica.id
        | (service, none) => readNode record.byService service.name

/-- The record or an answer has a device on a node. -/
def RunsOn (device : Device) (node : String) : Prop :=
  recordedNode top record device = some node ∨
    ∃ container ∈ (containers answers).1, container.deviceID = device.id ∧ container.node = node

end

/-- The placement is refused, or has every stateful device on the node it runs on. -/
def FailsClosed (stateful : Device → Prop) (top : Topology) (record : Option Record)
    (answers : List (Except String (List LiveContainer))) : Prop :=
  match runningPlacement top record answers with
  | .error _ => True
  | .ok out => ∀ device ∈ top.devices, stateful device →
      readNode out device.id ≠ "" ∧ RunsOn top record answers device (readNode out device.id)

/-! ### The loops -/

theorem readNode_insert_self {κ : Type} [DecidableEq κ] (t : Table κ String) (k : κ)
    (node : String) : readNode (t.insert k node) k = node := by
  rw [readNode, lookup_insert, Option.getD_some]

variable (top : Topology) (record : Option Record) (previous : Table String String)

theorem recordDevice_other (record : Record) (out : Table String String) (device : Device)
    {id : String} (h : id ≠ device.id) :
    (recordDevice top record out device).lookup id = out.lookup id := by
  unfold recordDevice
  by_cases hasn : device.asn ≠ 0
  · rw [if_pos hasn]
    by_cases hgroup : device.placementGroup ≠ ""
    · simp only [if_pos hgroup, readNode_insert_self]
      split <;> simp [lookup_insert_ne h]
    · simp only [if_neg hgroup]
      split
      · rw [lookup_insert_ne h]
      · rfl
  · rw [if_neg hasn]
    split <;> simp [lookup_insert_ne h]

theorem recordDevice_self (record : Record) (out : Table String String) (device : Device)
    (hfresh : out.lookup device.id = none) :
    (recordDevice top record out device).lookup device.id =
      recordedNode top (some record) device := by
  have hempty : readNode out device.id = "" := by rw [readNode, hfresh]; rfl
  unfold recordDevice recordedNode
  rw [Option.bind_some]
  by_cases hasn : device.asn ≠ 0
  · rw [if_pos hasn, if_pos hasn]
    by_cases hgroup : device.placementGroup ≠ ""
    · simp only [if_pos hgroup, readNode_insert_self]
      by_cases hnode : readNode record.byGroup device.placementGroup = ""
      · rw [if_pos hnode, if_neg fun h => h.2 hnode, lookup_insert]
      · rw [if_neg hnode, if_pos ⟨hgroup, hnode⟩, lookup_insert]
    · have hplain : ¬ (device.placementGroup ≠ "" ∧
          readNode record.byGroup device.placementGroup ≠ "") := fun h => hgroup h.1
      simp [if_neg hgroup, if_pos hempty, if_neg hplain]
  · rw [if_neg hasn, if_neg hasn]
    cases hservice : top.serviceByDevice device.id with
    | none => simpa only [Option.map_none] using hfresh
    | some owner =>
      obtain ⟨service, replica⟩ := owner
      cases replica <;> simp

variable {device : Device}

theorem lookup_foldl_recordDevice (record : Record) {devices : List Device}
    (hdistinct : (devices.map Device.id).Nodup) (out : Table String String)
    (hfresh : ∀ device ∈ devices, out.lookup device.id = none) (hmem : device ∈ devices) :
    (devices.foldl (recordDevice top record) out).lookup device.id =
      recordedNode top (some record) device := by
  refine Keyed.foldl_of_mem (r := fun out id => AList.lookup id out) (g := Device.id)
    ?_ hdistinct hmem fun out' hout => ?_
  · exact fun out' device id hid => recordDevice_other top record out' device hid
  · exact recordDevice_self top record out' device (hout.trans (hfresh device hmem))

/-- The loop reads the record device by device. -/
theorem lookup_recordedPlacement (hmem : device ∈ top.devices) :
    (recordedPlacement top record).lookup device.id = recordedNode top record device := by
  cases record with
  | none => rfl
  | some record =>
    have hdistinct : (top.devices.map Device.id).Nodup :=
      top.sorted.imp String.ne_of_lt
    exact lookup_foldl_recordDevice top record hdistinct ∅ (fun _ _ => rfl) hmem

/-! ### What is moved -/

theorem mem_moveDevice_iff (sources : Table String (List Device)) (device moved : Device)
    (source : String) :
    moved ∈ ((moveDevice previous sources device).lookup source).getD [] ↔
      moved ∈ (sources.lookup source).getD [] ∨
        moved = device ∧ readNode previous device.id = source ∧ source ≠ "" ∧
          source ≠ device.node := by
  unfold moveDevice
  by_cases hstay : readNode previous device.id = "" ∨ readNode previous device.id = device.node
  · simp only [if_pos hstay]
    refine ⟨.inl, ?_⟩
    rintro (h | ⟨-, rfl, hne, hnode⟩)
    · exact h
    · exact absurd hstay (not_or.mpr ⟨hne, hnode⟩)
  · simp only [if_neg hstay]
    rw [not_or] at hstay
    by_cases hsource : source = readNode previous device.id
    · subst hsource
      rw [lookup_insert, Option.getD_some, mem_append, mem_singleton]
      exact or_congr_right ⟨fun h => ⟨h, rfl, hstay⟩, fun h => h.1⟩
    · rw [lookup_insert_ne hsource]
      exact ⟨.inl, fun h => h.elim id fun h => absurd h.2.1.symm hsource⟩

/-- A device is moved from a node exactly if the placement has it on that node and it is
    to be elsewhere. One whose place reads as the empty name is not moved at all. -/
theorem mem_moves_iff (moved : Device) (source : String) :
    moved ∈ ((moves top previous).lookup source).getD [] ↔
      moved ∈ top.devices ∧ readNode previous moved.id = source ∧ source ≠ "" ∧
        source ≠ moved.node := by
  have hloop : ∀ (devices : List Device) (sources : Table String (List Device)),
      moved ∈ ((devices.foldl (moveDevice previous) sources).lookup source).getD [] ↔
        moved ∈ (sources.lookup source).getD [] ∨
          moved ∈ devices ∧ readNode previous moved.id = source ∧ source ≠ "" ∧
            source ≠ moved.node := by
    intro devices
    induction devices with
    | nil => simp
    | cons device devices ih =>
      intro sources
      rw [foldl_cons, ih, mem_moveDevice_iff, or_assoc, mem_cons, or_and_right]
      refine or_congr_right (or_congr_left ?_)
      exact and_congr_right fun h => by rw [h]
  rw [moves, hloop]
  simp

/-! ### A silent node -/

variable {answers : List (Except String (List LiveContainer))}

theorem exists_error_of_silent (hsilent : ∃ err, error err ∈ answers) :
    ∃ err errs, (containers answers).2 = err :: errs := by
  obtain ⟨err, herr⟩ := hsilent
  have hmem : err ∈ (containers answers).2 := mem_filterMap.mpr ⟨_, herr, rfl⟩
  cases hlist : (containers answers).2 with
  | nil =>
    rw [hlist] at hmem
    exact absurd hmem not_mem_nil
  | cons first rest => exact ⟨first, rest, rfl⟩

/-- With a node silent the placement is the record's, refused if the record was not asked
    for some device. -/
theorem runningPlacement_silent (hsilent : ∃ err, error err ∈ answers) :
    ((∃ device ∈ top.devices, recordedNode top record device = none) ∧
      ∃ text, runningPlacement top record answers = .error text) ∨
    ((∀ device ∈ top.devices, recordedNode top record device ≠ none) ∧
      runningPlacement top record answers = .ok (recordedPlacement top record)) := by
  obtain ⟨err, errs, herrs⟩ := exists_error_of_silent hsilent
  have hpair : containers answers = ((containers answers).1, err :: errs) := by
    rw [← herrs]
  unfold runningPlacement
  rw [hpair]
  simp only
  cases hfind : top.devices.find? fun device =>
      ((recordedPlacement top record).lookup device.id).isNone with
  | some device =>
    have hmem := mem_of_find?_eq_some hfind
    have hnone := find?_some hfind
    rw [lookup_recordedPlacement top record hmem, Option.isNone_iff_eq_none] at hnone
    exact .inl ⟨⟨device, hmem, hnone⟩, _, rfl⟩
  | none =>
    refine .inr ⟨fun device hmem hnone => ?_, rfl⟩
    have hall := find?_eq_none.mp hfind device hmem
    rw [lookup_recordedPlacement top record hmem, hnone] at hall
    exact hall rfl

/-- With a node silent, the placement fails closed exactly if some device is one the
    record cannot be asked for, or the record names a node for every stateful device. -/
theorem running_placement_closed_iff (stateful : Device → Prop) (top : Topology)
    (record : Option Record) (answers : List (Except String (List LiveContainer)))
    (hsilent : ∃ err, error err ∈ answers) :
    FailsClosed stateful top record answers ↔
      (∃ device ∈ top.devices, recordedNode top record device = none) ∨
        ∀ device ∈ top.devices, stateful device → recordedNode top record device ≠ some "" := by
  unfold FailsClosed
  rcases runningPlacement_silent top record hsilent with ⟨hmissing, text, hrun⟩ | ⟨hall, hrun⟩
  · rw [hrun]
    exact iff_of_true trivial (.inl hmissing)
  · rw [hrun]
    have hasked : ¬ ∃ device ∈ top.devices, recordedNode top record device = none :=
      fun ⟨device, hmem, hnone⟩ => hall device hmem hnone
    rw [or_iff_right hasked]
    refine forall₃_congr fun device hmem _ => ?_
    have hread := lookup_recordedPlacement top record hmem
    obtain ⟨node, hnode⟩ := Option.ne_none_iff_exists'.mp (hall device hmem)
    have hat : readNode (recordedPlacement top record) device.id = node := by
      rw [readNode, hread, hnode, Option.getD_some]
    rw [hat, hnode, Ne, Ne, Option.some.injEq]
    exact ⟨fun h => h.1, fun h => ⟨h, .inl hnode⟩⟩

/-- A router of an autonomous system that is to be on a node. -/
def routerOf (id : String) (asn : Int) (node : String) : Device where
  id := id
  asn := asn
  placementGroup := ""
  kind := .router
  nos := ""
  requests := ⟨0, .blank, 0, .blank, .blank, 0, 0⟩
  cpus := 0
  memory := .blank
  pids := 0
  node := node
  runtimeClass := ""
  usernsMode := ""

/-- Two autonomous systems of one router each, both to be on the third node. -/
def twoSystems : Topology where
  name := "lab"
  lab := ⟨"", [], "", [], ∅⟩
  devices := [routerOf "as1/r1" 1 "n3", routerOf "as2/r1" 2 "n3"]
  sorted := by
    simp only [map_cons, map_nil, routerOf, pairwise_pair]
    decide
  ases := ∅
  services := ∅
  links := []

def firstSystem : Table Int String := (∅ : Table Int String).insert 1 "n1"

/-- The second node answers with the router it runs, and the first does not answer. -/
def halfAnswered : List (Except String (List LiveContainer)) :=
  [.error "n1: timeout", .ok [⟨"twinet-lab-as2-r1", "as2/r1", "n2"⟩]]

/-- A record of both systems is as good as an answer. -/
theorem both_recorded_closed :
    (∃ err, error err ∈ halfAnswered) ∧
      FailsClosed (fun _ => True) twoSystems
        (some ⟨firstSystem.insert 2 "n2", ∅, ∅, ∅⟩) halfAnswered := by
  have hsilent : ∃ err, error err ∈ halfAnswered := ⟨_, mem_cons_self⟩
  refine ⟨hsilent, (running_placement_closed_iff _ _ _ _ hsilent).mpr (.inr ?_)⟩
  intro device hmem _
  rcases mem_pair.mp hmem with rfl | rfl
  · decide +kernel
  · decide +kernel

/-- A record that lacks the second system is taken for a complete one. Its router runs
    on the second node, is taken for one that runs nowhere and is not moved. -/
theorem missing_system_unplaced :
    ¬ FailsClosed (fun _ => True) twoSystems (some ⟨firstSystem, ∅, ∅, ∅⟩) halfAnswered ∧
      ∀ source, routerOf "as2/r1" 2 "n3" ∉ ((moves twoSystems
        (recordedPlacement twoSystems (some ⟨firstSystem, ∅, ∅, ∅⟩))).lookup source).getD [] := by
  have hsilent : ∃ err, error err ∈ halfAnswered := ⟨_, mem_cons_self⟩
  have hmem : routerOf "as2/r1" 2 "n3" ∈ twoSystems.devices :=
    mem_cons_of_mem _ mem_cons_self
  have hasked : ∀ device ∈ twoSystems.devices,
      recordedNode twoSystems (some ⟨firstSystem, ∅, ∅, ∅⟩) device ≠ none := by
    decide +kernel
  have hread : readNode (recordedPlacement twoSystems (some ⟨firstSystem, ∅, ∅, ∅⟩))
      (routerOf "as2/r1" 2 "n3").id = "" := by
    rw [readNode, lookup_recordedPlacement _ _ hmem]
    decide +kernel
  constructor
  · intro h
    unfold FailsClosed at h
    rcases runningPlacement_silent twoSystems (some ⟨firstSystem, ∅, ∅, ∅⟩) hsilent with
      ⟨⟨device, hdevice, hnone⟩, -⟩ | ⟨-, hrun⟩
    · exact hasked device hdevice hnone
    · rw [hrun] at h
      exact (h _ hmem trivial).1 hread
  · intro source h
    obtain ⟨-, rfl, hne, -⟩ := (mem_moves_iff _ _ _ _).mp h
    exact hne hread

end Client

end Twinet
