import Mathlib.Algebra.Order.Ring.Cast
import Mathlib.Data.Int.CharZero
import Twinet.Lib.Wrapped
import Twinet.Place.Assign

/-!
# Placing a Topology

Placement as a whole: an assignment is made and admitted, every device is stamped
with its node, and the cables of services that have replicas are made anew.

Strict admission is to be sound. If placement succeeds, no node has been given more
than it has, no device is on a node about which something is unknown, and each
device is where it was charged. If it refuses, no device has been touched. The
stamping works out the node of a device once more, in words of its own, and the
charges are machine integers. `strict_admission_iff` says what all this comes to for
the assignment that is made, and `strict_admission_sound` what a topology needs for it.

The remaking of the cables is a parameter. It sees the stamped devices and where
the ASes are, and succeeds or fails.

## Main definitions

* `place`: Placement as a whole.
* `StrictlySound`: What strict admission promises.
* `Regular`: An assignment for which the promise is kept.
* `Ordinary`: A topology for which it is kept whatever the search comes to.

## Theorems

* `stamp_eq_charge_iff`: When a device is stamped where it was charged.
* `within_asked_iff`: When a wrapped total that is in bounds is the exact one.
* `strict_admission_iff`: When strict admission is sound.
* `aligned_of_named`: Devices of a topology with names are stamped where they are charged.
* `strict_admission_sound`: Strict admission is sound for ordinary topologies.
-/

namespace Twinet

namespace Place

open List Resources Function
open Option (getD_some some)

/-! ### Stamping -/

section

variable (reconcileAttachments : List Device → Table Int String → Bool) (top : Topology)
  (a : Assignment) (d : Device)

/-- The node a device is stamped with. A device of an AS is where its group is, if
    the group has been placed, and else where the AS is. -/
def stampNode : Option String :=
  if 0 < d.asn then
    match a.byGroup.lookup d.placementGroup with
    | some n => some n
    | none => a.byAS.lookup d.asn
  else some (serviceOrFront top a d)

/-- Stamp devices until one has no node. -/
def stampAll (top : Topology) (a : Assignment) : List Device → List Device × Option PlaceError
  | [] => ([], none)
  | d :: rest =>
    match stampNode top a d with
    | none => (d :: rest, some (.unplaced d.id d.asn d.placementGroup))
    | some n =>
      let (rest, err) := stampAll top a rest
      ({ d with node := n } :: rest, err)

/-- The defaults that a node has for a device. -/
def hardened (node : NodeSpec) (d : Device) : Device :=
  { d with
      runtimeClass := if d.runtimeClass = "" then node.runtimeClass else d.runtimeClass
      usernsMode := if d.usernsMode = "" then node.usernsMode else d.usernsMode }

/-- Fill in the defaults until a device is on a node that is not there. -/
def hardenAll (lab : Lab) : List Device → List Device × Option PlaceError
  | [] => ([], none)
  | d :: rest =>
    match lab.nodeByName d.node with
    | none => (d :: rest, some (.placedOnUnknown d.id d.node))
    | some node =>
      let (rest, err) := hardenAll lab rest
      (hardened node d :: rest, err)

/-- Resolve every device onto a node. What was stamped before a failure stays. -/
def finish : List Device × Option PlaceError :=
  match stampAll top a top.devices with
  | (devices, some err) => (devices, some err)
  | (devices, none) =>
    match hardenAll top.lab devices with
    | (devices, some err) => (devices, some err)
    | (devices, none) =>
      (devices, if reconcileAttachments devices a.byAS then none else some .attachments)

/-- Place a topology: its devices afterwards, and the assignment with where it asks
    too much. -/
def place (opts : Options) : List Device × Except PlaceError (Assignment × List Overload) :=
  match assign top opts with
  | .error err => (top.devices, .error err)
  | .ok a =>
    match finish reconcileAttachments top a with
    | (devices, some err) => (devices, .error err)
    | (devices, none) => (devices, .ok (a, overloads top a (buildCapacityState top opts)))

/-! ### What is promised -/

/-- What is asked of a node in a dimension by others and by the devices that a
    function puts there. -/
def asked (s : CapacityState) (devices : List Device) (nodeOf : Device → String) (node : String)
    (dim : Dimension) : ℚ :=
  (s.base node).amount dim +
    ((devices.filter (nodeOf · = node)).map fun d => (deviceDemand d).amount dim).sum

/-- A total keeps to a capacity. -/
def Within (cap total : ℚ) : Prop := (cap < 0 → total ≤ 0) ∧ (0 < cap → total ≤ cap)

/-- What holds of the devices after a placement that was admitted. -/
structure Admitted (top : Topology) (opts : Options) (a : Assignment) (devices : List Device) :
    Prop where
  capacity : ∀ node, (buildCapacityState top opts).has node = true → ∀ dim,
    Within (((buildCapacityState top opts).cap node).amount dim)
      (asked (buildCapacityState top opts) devices Device.node node dim)
  known : ∀ d ∈ devices, (buildCapacityState top opts).missing d.node = []
  charged : devices.map Device.node = top.devices.map (nodeForAssignment top a)

/-- What strict admission promises. -/
def StrictlySound (opts : Options) : Prop :=
  match place reconcileAttachments top opts with
  | (devices, .ok (a, _)) => Admitted top opts a devices
  | (devices, .error _) => devices.map Device.node = top.devices.map Device.node

/-- The two ways in which the node of a device is worked out come to the same. A
    device of an AS has no blank entry for its group, and none for the blank group
    but the node of the AS; a device with a negative AS number is at the service or
    the front where it is charged. -/
structure Aligned (top : Topology) (a : Assignment) (d : Device) : Prop where
  entry : 0 < d.asn → ∀ n, a.byGroup.lookup d.placementGroup = some n →
    n ≠ "" ∧ (d.placementGroup = "" → nodeAt a.byAS d.asn = n)
  negative : d.asn < 0 → serviceOrFront top a d = nodeForAssignment top a d

/-- An assignment whose devices are aligned and whose totals are in the range of the
    machine integers, wherever a dimension is constrained. -/
structure Regular (top : Topology) (opts : Options) (a : Assignment) : Prop where
  aligned : ∀ d ∈ top.devices, Aligned top a d
  inRange : ∀ node, (buildCapacityState top opts).has node = true → ∀ dim, dim ≠ .cpu →
    ((buildCapacityState top opts).cap node).amount dim ≠ 0 →
      asked (buildCapacityState top opts) top.devices (nodeForAssignment top a) node dim < 2 ^ 63

/-- A device with its stamp and the defaults of its node. -/
def placed : Device :=
  let d := { d with node := (stampNode top a d).getD "" }
  match top.lab.nodeByName d.node with
  | none => d
  | some node => hardened node d

@[simp]
theorem node_placed : (placed top a d).node = (stampNode top a d).getD "" := by
  simp only [placed]
  split <;> rfl

theorem deviceDemand_placed : deviceDemand (placed top a d) = deviceDemand d := by
  simp only [placed]
  split <;> rfl

/-- A topology whose AS numbers are not negative, whose nodes and distributable groups
    have names, and where all that is requested comes to less than 2^63 on top of what
    others have of a node, wherever a dimension is constrained. The cables of its services
    can be made wherever its devices come to be. -/
structure Ordinary (opts : Options) : Prop where
  systems : ∀ d ∈ top.devices, 0 ≤ d.asn
  groups : ∀ asn as, top.ases.lookup asn = some as → as.distributable = true →
    ∀ g ∈ as.groups, g.id ≠ ""
  nodes : ∀ node ∈ top.lab.nodes, node.name ≠ ""
  inRange : ∀ node, (buildCapacityState top opts).has node = true → ∀ dim, dim ≠ .cpu →
    ((buildCapacityState top opts).cap node).amount dim ≠ 0 →
      ((buildCapacityState top opts).base node).amount dim +
        (top.devices.map fun d => max 0 ((deviceDemand d).amount dim)).sum < 2 ^ 63
  cables : ∀ a, reconcileAttachments (top.devices.map (placed top a)) a.byAS = true

end

/-! ### Stamping after admission -/

section Stamps

variable {top : Topology} {a : Assignment}

theorem stampAll_eq {devices : List Device} (h : ∀ d ∈ devices, (stampNode top a d).isSome = true) :
    stampAll top a devices =
      (devices.map fun d => { d with node := (stampNode top a d).getD "" }, none) := by
  induction devices with
  | nil => rfl
  | cons d devices ih =>
    obtain ⟨n, hn⟩ := Option.isSome_iff_exists.mp (h d (mem_cons_self ..))
    have hrest := ih fun d' hd' => h d' (mem_cons_of_mem _ hd')
    simp [stampAll, hn, hrest]

theorem hardenAll_eq (devices : List Device) (h : ∀ d ∈ devices, Declared top d.node) :
    hardenAll top.lab devices = (devices.map fun d =>
      match top.lab.nodeByName d.node with
      | none => d
      | some node => hardened node d, none) := by
  induction devices with
  | nil => rfl
  | cons d devices ih =>
    obtain ⟨node, hnode⟩ := Option.isSome_iff_exists.mp (h d (mem_cons_self ..))
    have hrest := ih fun d' hd' => h d' (mem_cons_of_mem _ hd')
    simp [hardenAll, hnode, hrest]

theorem finish_eq (reconcileAttachments : List Device → Table Int String → Bool)
    (h : ∀ d ∈ top.devices, ∃ n, stampNode top a d = some n ∧ Declared top n) :
    finish reconcileAttachments top a = (top.devices.map (placed top a),
      if reconcileAttachments (top.devices.map (placed top a)) a.byAS then none
      else some .attachments) := by
  have hstamp := stampAll_eq (fun d hd => by
    obtain ⟨n, hn, -⟩ := h d hd
    rw [hn]
    rfl)
  have hharden := hardenAll_eq (top.devices.map fun d =>
      { d with node := (stampNode top a d).getD "" }) (fun d hd => by
    obtain ⟨d', hd', rfl⟩ := mem_map.mp hd
    obtain ⟨n, hn, hdeclared⟩ := h d' hd'
    simpa only [hn, getD_some] using hdeclared)
  rw [map_map] at hharden
  simp only [finish, hstamp, hharden]
  rfl

theorem serviceOrFront_declared (hnodes : top.lab.nodes ≠ [])
    (hsettled : Settled top (Declared top) a) (d : Device) :
    Declared top (serviceOrFront top a d) := by
  rw [serviceOrFront]
  split_ifs with h
  · rw [serviceReplicaNode] at h ⊢
    split at h
    · exact absurd rfl h
    · rename_i r _
      cases hlook : a.byServiceReplica.lookup r.id with
      | none => simp [hlook] at h
      | some n => exact hsettled.replicas r.id n hlook
    · rename_i sv _
      cases hlook : a.byService.lookup sv.name with
      | none => simp [hlook] at h
      | some n => exact hsettled.services sv.name n hlook
  · exact declared_frontNode hnodes

variable {d : Device}

theorem exists_stamp (hnodes : top.lab.nodes ≠ []) (hsettled : Settled top (Declared top) a)
    (hcharged : nodeForAssignment top a d ≠ "")
    (hdeclared : Declared top (nodeForAssignment top a d)) :
    ∃ n, stampNode top a d = some n ∧ Declared top n := by
  rw [stampNode]
  split_ifs with hasn
  · cases hgroup : a.byGroup.lookup d.placementGroup with
    | some n => exact ⟨n, rfl, (hsettled.groups _ n hgroup).2⟩
    | none =>
      -- the group is not placed, so the device was charged to the node of its AS
      have hcharge : nodeForAssignment top a d = nodeAt a.byAS d.asn := by
        simp [nodeForAssignment, hasn.ne', hgroup]
      rw [hcharge, nodeAt] at hcharged hdeclared
      cases hlook : a.byAS.lookup d.asn with
      | none => simp [hlook] at hcharged
      | some n => exact ⟨n, rfl, by simpa [hlook] using hdeclared⟩
  · exact ⟨_, rfl, serviceOrFront_declared hnodes hsettled d⟩

/-- A device is stamped where it is charged, if aligned. -/
theorem stamp_eq_charge_iff (hcharged : nodeForAssignment top a d ≠ "") :
    stampNode top a d = some (nodeForAssignment top a d) ↔ Aligned top a d := by
  rcases lt_trichotomy d.asn 0 with hasn | hasn | hasn
  · rw [stampNode, if_neg (by omega), some.injEq]
    exact ⟨fun h => ⟨fun h' => by omega, fun _ => h⟩, fun h => h.negative hasn⟩
  · have heq : stampNode top a d = some (nodeForAssignment top a d) := by
      simp [stampNode, nodeForAssignment, hasn]
    exact iff_of_true heq ⟨fun h => by omega, fun h => by omega⟩
  · have hne : d.asn ≠ 0 := by omega
    rw [stampNode, if_pos hasn]
    cases hgroup : a.byGroup.lookup d.placementGroup with
    | none =>
      have hcharge : nodeForAssignment top a d = nodeAt a.byAS d.asn := by
        simp [nodeForAssignment, hne, hgroup]
      rw [hcharge] at hcharged ⊢
      refine iff_of_true ?_ ⟨fun _ n hn => ?_, fun h => by omega⟩
      · cases hlook : a.byAS.lookup d.asn with
        | none => simp [nodeAt, hlook] at hcharged
        | some n => simp [nodeAt, hlook]
      · rw [hgroup] at hn
        cases hn
    | some n =>
      simp only [some.injEq]
      by_cases hentry : d.placementGroup ≠ "" ∧ n ≠ ""
      · have hcharge : nodeForAssignment top a d = n := by
          simp [nodeForAssignment, hne, hgroup, hentry.1, hentry.2]
        rw [hcharge]
        refine iff_of_true rfl ⟨fun _ n' hn' => ?_, fun h => by omega⟩
        rw [hgroup, some.injEq] at hn'
        subst hn'
        exact ⟨hentry.2, fun h => absurd h hentry.1⟩
      · -- the entry is passed over when the device is charged
        have hcharge : nodeForAssignment top a d = nodeAt a.byAS d.asn := by
          rw [nodeForAssignment, if_pos hne, if_neg (by simpa [hgroup] using hentry)]
        rw [hcharge] at hcharged ⊢
        constructor
        · intro h
          refine ⟨fun _ n' hn' => ?_, fun h => by omega⟩
          rw [hgroup, some.injEq] at hn'
          subst hn'
          exact ⟨h ▸ hcharged, fun _ => h.symm⟩
        · intro h
          obtain ⟨hn, hblank⟩ := h.entry hasn n hgroup
          exact (hblank (by_contra fun hg => hentry ⟨hg, hn⟩)).symm

end Stamps

/-! ### Charges -/

variable {top : Topology}

section Charges

theorem loadAt_charge (loads : Table String Resources) (node node' : String) (need : Resources) :
    loadAt (charge loads node need) node' =
      if node' = node then (loadAt loads node).add need else loadAt loads node' := by
  rw [charge, loadAt]
  by_cases h : node' = node
  · subst h
    simp [loadAt]
  · simp [h, loadAt, AList.lookup_insert_ne h]

theorem loadAt_assignmentDemands {a : Assignment}
    (h : ∀ d ∈ top.devices, nodeForAssignment top a d ≠ "") (baseline : Table String Resources)
    (node : String) : loadAt (assignmentDemands top a baseline) node =
      ((top.devices.filter (nodeForAssignment top a · = node)).map deviceDemand).foldl
        add (loadAt baseline node) := by
  rw [assignmentDemands]
  generalize top.devices = devices at h
  induction devices generalizing baseline with
  | nil => rfl
  | cons d devices ih =>
    rw [foldl_cons, if_neg (h d (mem_cons_self ..)),
      ih _ fun d' hd' => h d' (mem_cons_of_mem _ hd'), loadAt_charge]
    by_cases hnode : nodeForAssignment top a d = node
    · simp [hnode]
    · simp [hnode, Ne.symm hnode]

theorem cpus_foldl (needs : List Resources) (r : Resources) :
    (needs.foldl add r).cpus = r.cpus + (needs.map (·.cpus)).sum := by
  induction needs generalizing r with
  | nil => simp
  | cons need needs ih =>
    rw [foldl_cons, ih, map_cons, sum_cons, ← add_assoc]
    rfl

theorem toInt_raw_foldl (dim : Dimension) (needs : List Resources) (r : Resources) :
    (raw dim (needs.foldl add r)).toInt =
      ((raw dim r).toInt +
        (needs.map fun need => (raw dim need).toInt).sum).bmod (2 ^ 64) := by
  have hfold : raw dim (needs.foldl add r) =
      (needs.map (raw dim)).foldl (· + ·) (raw dim r) := by
    induction needs generalizing r with
    | nil => rfl
    | cons need needs ih => rw [foldl_cons, ih, raw_add, map_cons,
        foldl_cons]
  rw [hfold, Wrapped.toInt_foldl_add, map_map]
  rfl

variable {dim : Dimension}

theorem exceeds_eq_false_iff {cap load : Resources} :
    exceeds dim cap load = false ↔ Within (cap.amount dim) (load.amount dim) := by
  simp [exceeds, Within]

variable {s : CapacityState} {devices : List Device} {nodeOf : Device → String} {node : String}

theorem asked_eq_cast (hdim : dim ≠ .cpu) :
    asked s devices nodeOf node dim = (((raw dim (s.base node)).toInt +
      (((devices.filter (nodeOf · = node)).map deviceDemand).map fun need =>
        (raw dim need).toInt).sum : Int) : ℚ) := by
  rw [asked, amount_of_ne_cpu hdim, Int.cast_add, map_map]
  congr 1
  induction devices.filter (nodeOf · = node) with
  | nil => simp
  | cons d rest ih =>
    rw [map_cons, sum_cons, map_cons, sum_cons, Int.cast_add, ih,
      amount_of_ne_cpu hdim]
    rfl

/-- No node is asked for more than all devices request together. -/
theorem asked_le_total : asked s devices nodeOf node dim ≤
    (s.base node).amount dim + (devices.map fun d => max 0 ((deviceDemand d).amount dim)).sum := by
  refine add_le_add_right ?_ _
  induction devices with
  | nil => exact le_rfl
  | cons d devices ih =>
    rw [map_cons, sum_cons, filter_cons]
    split
    · rw [map_cons, sum_cons]
      exact add_le_add (le_max_right ..) ih
    · exact ih.trans (le_add_of_nonneg_left (le_max_left ..))

/-- A total that wrapped and still keeps to a capacity is the exact one as long as that is
    below 2^63; CPUs are counted exactly. -/
theorem within_asked_iff {cap : Resources}
    (h : Within (cap.amount dim) ((((devices.filter (nodeOf · = node)).map deviceDemand).foldl
      add (s.base node)).amount dim)) :
    Within (cap.amount dim) (asked s devices nodeOf node dim) ↔
      (dim ≠ .cpu → cap.amount dim ≠ 0 → asked s devices nodeOf node dim < 2 ^ 63) := by
  -- processors are rational numbers and do not wrap
  by_cases hdim : dim = .cpu
  · subst hdim
    refine iff_of_true ?_ fun hne => absurd rfl hne
    have hsum : asked s devices nodeOf node .cpu = (((devices.filter (nodeOf · = node)).map
        deviceDemand).foldl add (s.base node)).amount .cpu := by
      simp only [asked, amount, cpus_foldl, map_map]
      rfl
    rwa [hsum]
  · rw [amount_of_ne_cpu hdim, amount_of_ne_cpu hdim, toInt_raw_foldl] at h
    rw [amount_of_ne_cpu hdim, asked_eq_cast hdim]
    generalize (raw dim (s.base node)).toInt + (((devices.filter
      (nodeOf · = node)).map deviceDemand).map fun need =>
        (raw dim need).toInt).sum = total at h ⊢
    have hlow := Int64.le_toInt (raw dim cap)
    have hhigh := Int64.toInt_lt (raw dim cap)
    generalize (raw dim cap).toInt = c at h hlow hhigh ⊢
    simp only [Within, Int.cast_lt_zero, Int.cast_pos, Int.cast_le, Int.cast_nonpos, ne_eq, hdim,
      not_false_eq_true, true_implies, Int.cast_eq_zero] at h ⊢
    rw [show ((total : ℚ) < 2 ^ 63 ↔ total < 2 ^ 63) by exact_mod_cast Iff.rfl]
    -- a negative capacity bounds as well, zero does not
    rcases lt_trichotomy c 0 with hc | hc | hc
    · have hbound := Wrapped.le_iff (by omega) (by omega) (h.1 hc)
      constructor
      · exact fun hw _ => hbound.mp (hw.1 hc)
      · exact fun hr => ⟨fun _ => hbound.mpr (hr (by omega)), fun hc' => by omega⟩
    · subst hc
      simp
    · have hbound := Wrapped.le_iff hlow hhigh (h.2 hc)
      constructor
      · exact fun hw _ => hbound.mp (hw.2 hc)
      · exact fun hr => ⟨fun hc' => by omega, fun _ => hbound.mpr (hr (by omega))⟩

end Charges

/-! ### Soundness -/

theorem StrictlySound.within {reconcileAttachments : List Device → Table Int String → Bool}
    {opts : Options} (h : StrictlySound reconcileAttachments top opts)
    (hok : (place reconcileAttachments top opts).2.isOk = true) (node : String)
    (hhas : (buildCapacityState top opts).has node = true) (dim : Dimension) :
    Within (((buildCapacityState top opts).cap node).amount dim)
      (asked (buildCapacityState top opts) (place reconcileAttachments top opts).1 Device.node
        node dim) := by
  rw [StrictlySound] at h
  rcases hplace : place reconcileAttachments top opts with ⟨devices, _ | ⟨a, excess⟩⟩
  · rw [hplace] at hok
    cases hok
  · rw [hplace] at h
    exact h.capacity node hhas dim

section Soundness

variable {top : Topology} {opts : Options} {a : Assignment}

theorem admitted_iff_regular
    (hadmitted : strictAssignmentError top a (buildCapacityState top opts) = none)
    (hstamps : ∀ d ∈ top.devices, ∃ n, stampNode top a d = some n ∧ Declared top n) :
    Admitted top opts a (top.devices.map (placed top a)) ↔ Regular top opts a := by
  obtain ⟨hdevices, hloads⟩ := strictAssignmentError_eq_none_iff.mp hadmitted
  have hcharge : (top.devices.map (placed top a)).map Device.node =
      top.devices.map (nodeForAssignment top a) ↔ ∀ d ∈ top.devices, Aligned top a d := by
    rw [map_map, map_inj_left]
    refine forall₂_congr fun d hd => ?_
    obtain ⟨n, hn, -⟩ := hstamps d hd
    rw [← stamp_eq_charge_iff (hdevices d hd).1, comp_apply, node_placed, hn,
      getD_some, some.injEq]
  -- once devices are stamped where they were charged, both totals are the same
  have hasked : (∀ d ∈ top.devices, Aligned top a d) → ∀ node dim,
      asked (buildCapacityState top opts) (top.devices.map (placed top a)) Device.node node dim =
        asked (buildCapacityState top opts) top.devices (nodeForAssignment top a) node dim := by
    intro haligned node dim
    have hnode : ∀ d ∈ top.devices, (placed top a d).node = nodeForAssignment top a d := by
      simpa [map_map, map_inj_left] using hcharge.mpr haligned
    rw [asked, asked, filter_map, map_map]
    congr 2
    rw [filter_congr fun d hd => by rw [comp_apply, hnode d hd]]
    exact map_congr_left fun d _ => by rw [comp_apply, deviceDemand_placed]
  have hcapacity : ∀ node, (buildCapacityState top opts).has node = true → ∀ dim, _ :=
    fun node hhas dim => by
      have hload := exceeds_eq_false_iff.mp (hloads node hhas dim)
      rw [loadAt_assignmentDemands (fun d hd => (hdevices d hd).1)] at hload
      exact within_asked_iff hload
  constructor
  · intro h
    have haligned := hcharge.mp h.charged
    refine ⟨haligned, fun node hhas dim => ?_⟩
    have hwithin := h.capacity node hhas dim
    rw [hasked haligned] at hwithin
    exact (hcapacity node hhas dim).mp hwithin
  · intro h
    refine ⟨fun node hhas dim => ?_, fun d hd => ?_, hcharge.mpr h.aligned⟩
    · rw [hasked h.aligned]
      exact (hcapacity node hhas dim).mpr (h.inRange node hhas dim)
    · obtain ⟨d', hd', rfl⟩ := mem_map.mp hd
      have hstamp := (stamp_eq_charge_iff (hdevices d' hd').1).mpr (h.aligned d' hd')
      rw [node_placed, hstamp, getD_some]
      exact (hdevices d' hd').2.2

end Soundness

/-- Strict admission is sound exactly if every assignment it admits is regular,
    where the cables can be made, and leaves every device where it was, where they
    cannot. -/
theorem strict_admission_iff (reconcileAttachments : List Device → Table Int String → Bool)
    (top : Topology) (opts : Options) (hstrict : opts.strict = true)
    (hovercommit : opts.overcommit = false) :
    StrictlySound reconcileAttachments top opts ↔ ∀ a, assign top opts = .ok a →
      if reconcileAttachments (top.devices.map (placed top a)) a.byAS = true then
        Regular top opts a
      else ∀ d ∈ top.devices, stampNode top a d = some d.node := by
  have hadmission : opts.admission = true := by rw [Options.admission, hstrict, hovercommit]; rfl
  rw [StrictlySound, place]
  cases hassign : assign top opts with
  | error err => simp
  | ok a =>
    obtain ⟨hnodes, hadmitted, hsettled⟩ := assign_admitted hadmission hassign
    have hdevices := (strictAssignmentError_eq_none_iff.mp hadmitted).1
    have hstamps : ∀ d ∈ top.devices, ∃ n, stampNode top a d = some n ∧ Declared top n :=
      fun d hd => exists_stamp hnodes hsettled (hdevices d hd).1
        (nodeByName_of_candidate (hdevices d hd).2.1)
    simp only [finish_eq reconcileAttachments hstamps, Except.ok.injEq, forall_eq']
    by_cases hcables : reconcileAttachments (top.devices.map (placed top a)) a.byAS = true
    · simp only [if_pos hcables]
      exact admitted_iff_regular hadmitted hstamps
    · simp only [if_neg hcables]
      rw [map_map, map_inj_left]
      refine forall₂_congr fun d hd => ?_
      obtain ⟨n, hn, -⟩ := hstamps d hd
      rw [comp_apply, node_placed, hn, getD_some, some.injEq]

/-- Where groups and nodes have names and no AS number is negative, a device is stamped where
    it was charged, whatever the search makes of pins, records and groups. -/
theorem aligned_of_named {reconcileAttachments : List Device → Table Int String → Bool}
    {opts : Options} {a : Assignment} {d : Device} (h : Ordinary reconcileAttachments top opts)
    (hsettled : Settled top (Declared top) a) (hd : d ∈ top.devices) : Aligned top a d := by
  refine ⟨fun _ n hn => ?_, fun hneg => absurd (h.systems d hd) (by omega)⟩
  obtain ⟨⟨asn, as, has, hdistributable, g, hg, hid⟩, hdeclared⟩ := hsettled.groups _ n hn
  refine ⟨?_, fun hblank => absurd (hid.trans hblank) (h.groups asn as has hdistributable g hg)⟩
  obtain ⟨node, hnode⟩ := Option.isSome_iff_exists.mp hdeclared
  have hname : node.name = n := by simpa using find?_some hnode
  exact hname ▸ h.nodes node (mem_of_find?_eq_some hnode)

/-- Strict admission is sound for every ordinary topology, whatever the nodes report, the
    record says and the strategy is. -/
theorem strict_admission_sound (reconcileAttachments : List Device → Table Int String → Bool)
    (top : Topology) (opts : Options) (hstrict : opts.strict = true)
    (hovercommit : opts.overcommit = false) (h : Ordinary reconcileAttachments top opts) :
    StrictlySound reconcileAttachments top opts := by
  refine (strict_admission_iff reconcileAttachments top opts hstrict hovercommit).mpr
    fun a hassign => ?_
  have hadmission : opts.admission = true := by rw [Options.admission, hstrict, hovercommit]; rfl
  obtain ⟨-, -, hsettled⟩ := assign_admitted hadmission hassign
  rw [if_pos (h.cables a)]
  exact ⟨fun d hd => aligned_of_named h hsettled hd, fun node hhas dim hdim hcap =>
    asked_le_total.trans_lt (h.inRange node hhas dim hdim hcap)⟩

/-! ### Two hosts on one node -/

/-- A node with a million of everything, as its agent reports. -/
def hall : NodeSpec := ⟨"hall", "", none, 1, true, "", ""⟩

def hallReport : NodeInventory where
  name := "hall"
  allocatable := ⟨some 1000000, some 1000000, some 1000000, some 1000000, some 1000000,
    some 1000000, some 1000000⟩
  reserved := .zero
  reservedByLab := ∅
  unlimited := []

/-- A host of the first AS that asks for processes. -/
def crowd (id : String) (pids : Int64) : Device where
  id := id
  asn := 1
  placementGroup := ""
  kind := .host
  nos := ""
  requests := ⟨0, .blank, pids, .blank, .blank, 0, 0⟩
  cpus := 0
  memory := .blank
  pids := 0
  node := ""
  runtimeClass := ""
  usernsMode := ""

/-- One AS with two hosts, and one node for them. -/
def twoHosts (pids : Int64) : Topology where
  name := "lab"
  lab := ⟨"", [hall], "", [], ∅⟩
  devices := [crowd "h1" pids, crowd "h2" pids]
  sorted := by
    simp only [map_cons, map_nil, crowd, pairwise_pair]
    decide
  ases := (∅ : Table Int AS).insert 1 ⟨"", "", "", false, [], ["h1", "h2"]⟩
  services := ∅
  links := []

def strictly : Options := ⟨"", none, false, [hallReport], true, false, []⟩

/-- Two hosts with a hundred processes each are ordinary. -/
theorem ordinary_twoHosts : Ordinary (fun _ _ => true) (twoHosts 100) strictly where
  systems := by decide
  groups asn as has _ g hg := by
    -- the one AS has no groups
    obtain ⟨-, rfl⟩ | ⟨-, hnone⟩ := Table.lookup_insert_eq_some.mp has
    · cases hg
    · cases hnone
  nodes := by decide
  inRange node hhas dim _ _ := by
    have htotals : ∀ dim ∈ Dimension.all,
        ((buildCapacityState (twoHosts 100) strictly).base "hall").amount dim +
          ((twoHosts 100).devices.map fun d => max 0 ((deviceDemand d).amount dim)).sum <
            2 ^ 63 := by decide +kernel
    have hknown : (buildCapacityState (twoHosts 100) strictly).hasCap.keys = ["hall"] := by
      decide +kernel
    obtain rfl : node = "hall" := by
      by_contra hne
      have hnone : (buildCapacityState (twoHosts 100) strictly).hasCap.lookup node = none := by
        rw [AList.lookup_eq_none, AList.mem_keys, hknown, mem_singleton]
        exact hne
      rw [CapacityState.has, hnone] at hhas
      cases hhas
    exact htotals dim (by cases dim <;> decide)
  cables _ := rfl

/-- Two hosts with a hundred processes each are placed, within what the node has. -/
theorem strict_admission_twoHosts :
    strictly.strict = true ∧ strictly.overcommit = false ∧
      (place (fun _ _ => true) (twoHosts 100) strictly).2.isOk = true ∧
      Ordinary (fun _ _ => true) (twoHosts 100) strictly ∧
      StrictlySound (fun _ _ => true) (twoHosts 100) strictly :=
  ⟨rfl, rfl, by decide +kernel, ordinary_twoHosts,
    strict_admission_sound _ _ strictly rfl rfl ordinary_twoHosts⟩

/-- Two hosts that ask for 2^62 processes each are admitted on a node that has room
    for a million, since what they ask for together wraps to a negative number. -/
theorem wrapped_total_admitted :
    ¬ StrictlySound (fun _ _ => true) (twoHosts (2 ^ 62)) strictly := by
  intro h
  have hpids := h.within (by decide +kernel) "hall" (by decide +kernel) .pids
  exact absurd (hpids.2 (by decide +kernel)) (by decide +kernel)

end Place

end Twinet
