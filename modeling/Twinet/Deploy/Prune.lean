import Twinet.Deploy.StoreCaptured

/-!
# Pruning Containers

A prune removes the containers of a lab that the manifest has no place for on
this node. It reads all of them first and stores what it read, and it removes
none of them unless it has nothing to object to any of them. A device has one
place in the store and can have several containers, so only the container that
speaks for the device is stored; any other has to show that it holds just what is
saved.

What a prune does not object to is a namespace it takes to have been replaced.

## Main definitions

* `preserveOrphans`: Read every candidate and store what may be stored.
* `pruneOrphans`: What is removed, and the store afterwards.
* `ReallyStored`: All of a reading is saved.

## Theorems

* `writable_nodup`: No two containers are stored for one device.
* `removed_preserved_iff`: What is read out of a container that is then removed
  is preserved unless it was overlooked, in a prune and in a replacement.
-/

namespace Twinet

namespace Deploy

open Option

/-- A container that may be removed, with the identifier of its device. -/
structure Candidate where
  name : String
  device : String
  frrControl : Bool
deriving DecidableEq, Repr

def Candidate.target (c : Candidate) : Target := { id := c.device, container := c.name }

/-- A runtime has one container of a name. -/
structure Listing where
  containers : List Candidate
  distinct : (containers.map (·.name)).Nodup

/-- What was established about a candidate. -/
structure OrphanPreservation where
  container : String
  device : String
  stored : Bool
deriving DecidableEq, Repr

/-- What a transition has established before it wrote the reference solution. -/
structure OrphanPreservationSet where
  preserved : List OrphanPreservation
  unreadable : List String
  removable : List String
deriving DecidableEq, Repr

/-- Where the manifest has a device. -/
structure Placement where
  node : String
  container : String
deriving DecidableEq, Repr

structure PruneEngine extends CaptureEngine where
  node : String
  placement : String → Option Placement
  preservedOrphans : Option OrphanPreservationSet

/-- What becomes of every access of a prune, beside those of storing. -/
structure PruneOutcomes extends Outcomes where
  capture : String → Held × CaptureResult
  /-- What is saved of a device can be read to be compared. -/
  durable : String → Kind → Bool
  interrupted : Bool
  remove : String → Bool

section Prune

variable (canonicalState : Kind → String → String) (e : PruneEngine) (o : PruneOutcomes)
  (cs : List Candidate)

def unreadable (container : String) : Bool :=
  e.preservedOrphans.any (·.unreadable.contains container)

variable (st : Store) (c : Candidate)

/-- The device a container is read for, or an objection to not reading it. -/
def orphanTarget : Option Target × List Problem :=
  if unreadable e c.name then (none, [])
  else if c.frrControl then (none, [])
  else if !e.hasStore then (none, if e.writesReference then [] else [.noStore c.name])
  else if e.writesReference then (none, [])
  else if c.device = "" then (none, [.noIdentifier c.name])
  else (some c.target, [])

/-- The containers that are read for a device. -/
def claimants (id : String) : List Candidate :=
  cs.filter fun c => (orphanTarget e c).1.any (·.id == id)

/-- The container speaks for its device: the manifest has the device on another
    node in a container of this name, or does not know it and nobody else claims
    it. -/
def canonical : Bool :=
  (orphanTarget e c).1.any fun t =>
    match e.placement t.id with
    | some p => p.node != e.node && c.name == p.container
    | none => (claimants e cs t.id).length == 1

/-- The container was found stopped. -/
def foundStopped : Bool := (o.capture c.name).2 = .notRunning

/-- What was read out of a container. -/
def heldBy : Held :=
  if (orphanTarget e c).1.isSome then (o.capture c.name).1 else fun _ => none

def isEmpty (held : Held) : Bool := allKinds.all fun k => (held k).isNone

/-- The readings that are stored. -/
def writable : List (Target × Held) :=
  cs.filterMap fun c =>
    if canonical e cs c && !isEmpty (heldBy e o c) then
      (orphanTarget e c).1.map fun t => (t, heldBy e o c)
    else none

/-- What was read is what is saved, in every kind. -/
def equivalentToDurable (t : Target) (held : Held) (st : Store) : Bool :=
  allKinds.all fun k => o.durable t.id k &&
    canonicalBody canonicalState k (held k) == canonicalBody canonicalState k (st t.id k)

/-- The objection to the removal of one candidate, once everything is stored. -/
def objection (stored : Captured) (c : Candidate) : List Problem :=
  match (orphanTarget e c).1 with
  | none => []
  | some t =>
    if (o.capture c.name).2 ≠ .done then [.capture c.name]
    else if (stored.finding t.id).namespaceUnproven then [.unproven c.name]
    else if canonical e cs c then []
    else if equivalentToDurable canonicalState o t (heldBy e o c) stored.store then []
    else [.claimant c.name]

/-- The record of a candidate. -/
def orphanRecord (stored : Captured) (c : Candidate) : OrphanPreservation :=
  { container := c.name, device := c.device
    stored := canonical e cs c && !isEmpty (heldBy e o c) && (o.capture c.name).2 = .done &&
      !(stored.finding c.device).namespaceUnproven }

/-- Read every candidate and store what may be stored: the store and the records
    afterwards, and every objection. -/
def preserveOrphans : Store × List OrphanPreservation × List Problem :=
  let stored := storeCaptured e.toCaptureEngine o.toOutcomes true (writable e o cs) st
  (stored.store, cs.map (orphanRecord e o cs stored),
    cs.flatMap (fun c => (orphanTarget e c).2) ++ stored.problems ++
      cs.flatMap (objection canonicalState e o cs stored) ++
      if o.interrupted then [.interrupted] else [])

/-- Preserve everything a prune would delete, and delete nothing: the records,
    unless there is an objection. -/
def preserveOrphansOnly : Option (List OrphanPreservation) × Store :=
  let preserved := preserveOrphans canonicalState e o cs st
  (if preserved.2.2 ≠ [] then none else some preserved.2.1, preserved.1)

/-- Candidates that were not read and that nothing was preserved for. -/
def unpreservedCandidates : List Problem :=
  match e.preservedOrphans with
  | none => []
  | some set =>
    (cs.filter fun c => (e.writesReference || set.unreadable.contains c.name) &&
      !set.removable.contains c.name &&
      !(set.preserved.find? (·.container == c.name)).any (·.device == c.device)).map
      fun c => .unpreserved c.name

/-- The containers a prune removes, and the store afterwards. -/
def pruneOrphans : List Candidate × Store :=
  let preserved := preserveOrphans canonicalState e o cs st
  if preserved.2.2 ++ unpreservedCandidates e cs ≠ [] then ([], preserved.1)
  else (cs.filter (fun c => o.remove c.name), preserved.1)

end Prune

section Facts

variable {canonicalState : Kind → String → String} {e : PruneEngine} {o : PruneOutcomes}
  {cs : List Candidate} {c d : Candidate} {t : Target} {st : Store} {held : Held}

theorem orphanTarget_eq (h : (orphanTarget e c).1 = some t) :
    t = c.target := by
  unfold orphanTarget at h
  split_ifs at h
  exact (some.inj h).symm

theorem canonical_unique (hnames : (cs.map (·.name)).Nodup) (hc : c ∈ cs) (hd : d ∈ cs)
    (hcc : canonical e cs c = true) (hcd : canonical e cs d = true) (hid : c.device = d.device) :
    c = d := by
  obtain ⟨t, ht, hct⟩ := (any_eq_true _ _).mp hcc
  obtain ⟨u, hu, hdu⟩ := (any_eq_true _ _).mp hcd
  have htid : t.id = c.device := by rw [orphanTarget_eq ht, Candidate.target]
  have huid : u.id = c.device := by rw [orphanTarget_eq hu, Candidate.target, hid]
  rw [htid] at hct
  rw [huid] at hdu
  cases hp : e.placement c.device with
  | some p =>
    simp only [hp, Bool.and_eq_true, beq_iff_eq] at hct hdu
    exact List.inj_on_of_nodup_map hnames hc hd (hct.2.trans hdu.2.symm)
  | none =>
    simp only [hp, beq_iff_eq] at hct
    obtain ⟨x, hx⟩ := List.length_eq_one_iff.mp hct
    have hmem : ∀ y ∈ cs, ∀ v, (orphanTarget e y).1 = some v → v.id = c.device → y = x := by
      intro y hy v hv hvid
      have hin : y ∈ claimants e cs c.device :=
        List.mem_filter.mpr ⟨hy, by simp [hv, hvid]⟩
      rwa [hx, List.mem_singleton] at hin
    exact (hmem c hc t ht htid).trans (hmem d hd u hu huid).symm

theorem mem_writable :
    (t, held) ∈ writable e o cs ↔ ∃ c ∈ cs, canonical e cs c = true ∧
      isEmpty (heldBy e o c) = false ∧ (orphanTarget e c).1 = some t ∧ held = heldBy e o c := by
  simp only [writable, List.mem_filterMap]
  refine exists_congr fun c => and_congr_right fun _ => ?_
  by_cases hw : (canonical e cs c && !isEmpty (heldBy e o c)) = true
  · rw [if_pos hw]
    simp only [Bool.and_eq_true, Bool.not_eq_true'] at hw
    simp [hw.1, hw.2, eq_comm]
  · rw [if_neg hw]
    simp only [Bool.and_eq_true, Bool.not_eq_true'] at hw
    simp only [reduceCtorEq, false_iff]
    exact fun h => hw ⟨h.1, h.2.1⟩

/-- One container speaks for a device. -/
theorem writable_nodup (hnames : (cs.map (·.name)).Nodup) :
    ((writable e o cs).map (·.1.id)).Nodup := by
  rw [List.Nodup, List.pairwise_map, writable, List.pairwise_filterMap]
  have hdistinct : cs.Nodup := hnames.of_map
  refine hdistinct.imp_of_mem fun {c d} hc hd hne => ?_
  intro x hx y hy hid
  split_ifs at hx hy with hcc hcd
  simp only [Bool.and_eq_true] at hcc hcd
  obtain ⟨t, ht, rfl⟩ := map_eq_some_iff.mp hx
  obtain ⟨u, hu, rfl⟩ := map_eq_some_iff.mp hy
  rw [orphanTarget_eq ht, orphanTarget_eq hu] at hid
  exact hne (canonical_unique hnames hc hd hcc.1 hcd.1 hid)

theorem preserveOrphans_clear {records : List OrphanPreservation} {st' : Store}
    (h : preserveOrphans canonicalState e o cs st = (st', records, [])) :
    let stored := storeCaptured e.toCaptureEngine o.toOutcomes true (writable e o cs) st
    stored.problems = [] ∧ (∀ c ∈ cs, objection canonicalState e o cs stored c = []) ∧
      stored.store = st' := by
  obtain ⟨hst, h⟩ := Prod.mk.inj h
  simp only [Prod.mk.injEq, List.append_eq_nil_iff, List.flatMap_eq_nil_iff] at h
  exact ⟨h.2.1.1.2, h.2.1.2, hst⟩

theorem objection_nil {stored : Captured} (h : objection canonicalState e o cs stored c = [])
    (ht : (orphanTarget e c).1 = some c.target) :
    (o.capture c.name).2 = .done ∧ (stored.finding c.device).namespaceUnproven = false ∧
      (canonical e cs c = false →
        equivalentToDurable canonicalState o c.target (heldBy e o c) stored.store = true) := by
  simp only [objection, ht] at h
  split_ifs at h with hdone hunproven hcanon hsame
  · exact ⟨not_not.mp hdone, Bool.not_eq_true _ ▸ hunproven, fun hc => by simp [hcanon] at hc⟩
  · exact ⟨not_not.mp hdone, Bool.not_eq_true _ ▸ hunproven, fun _ => hsame⟩

theorem isEmpty_iff : isEmpty held = true ↔ ∀ k, held k = none := by
  simp only [isEmpty, List.all_eq_true, isNone_iff_eq_none]
  exact ⟨fun h k => h k (mem_allKinds k), fun h k _ => h k⟩

theorem preserved_of_equivalent (h : equivalentToDurable canonicalState o t held st = true)
    (stopped : Bool) : Preserved canonicalState o.toOutcomes t stopped held st := by
  intro k body hk
  have hsame := List.all_eq_true.mp h k (mem_allKinds k)
  rw [Bool.and_eq_true, beq_iff_eq, hk] at hsame
  exact .inl hsame.2.symm

/-- All of a reading is saved. -/
def ReallyStored (canonicalState : Kind → String → String) (id : String) (held : Held)
    (st : Store) : Prop :=
  ∀ k body, held k = some body →
    canonicalBody canonicalState k (st id k) = canonicalBody canonicalState k (some body)

theorem mem_pruneOrphans (h : c ∈ (pruneOrphans canonicalState e o cs st).1) :
    c ∈ cs ∧ ∃ records, preserveOrphans canonicalState e o cs st =
      ((pruneOrphans canonicalState e o cs st).2, records, []) := by
  simp only [pruneOrphans] at h ⊢
  split_ifs at h ⊢ with hp
  · simp at h
  · rw [not_not, List.append_eq_nil_iff] at hp
    exact ⟨(List.mem_filter.mp h).1, _, Prod.ext rfl (Prod.ext rfl hp.1)⟩

variable {records : List OrphanPreservation} {st' : Store}

theorem preserveOrphansOnly_eq
    (h : preserveOrphansOnly canonicalState e o cs st = (some records, st')) :
    preserveOrphans canonicalState e o cs st = (st', records, []) := by
  simp only [preserveOrphansOnly, Prod.mk.injEq] at h
  obtain ⟨hrecords, hst⟩ := h
  split_ifs at hrecords with hp
  exact Prod.ext hst (Prod.ext (some.inj hrecords) (not_not.mp hp))

variable (hnames : (cs.map (·.name)).Nodup) (hc : c ∈ cs)
  (hp : preserveOrphans canonicalState e o cs st = (st', records, []))

include hnames hc hp

theorem canonical_stored (hcanon : canonical e cs c = true)
    (hne : isEmpty (heldBy e o c) = false) :
    (findingAfter e.toCaptureEngine o.toOutcomes c.target).namespaceUnproven = false ∧
      ∀ k, st' c.device k =
        (storableSnapshots o.toOutcomes (findingAfter e.toCaptureEngine o.toOutcomes c.target)
          c.target (heldBy e o c) k).or (st c.device k) := by
  obtain ⟨hok, hobj, rfl⟩ := preserveOrphans_clear hp
  obtain ⟨t, ht, -⟩ := (any_eq_true _ _).mp hcanon
  obtain rfl := orphanTarget_eq ht
  have hmem : (c.target, heldBy e o c) ∈ writable e o cs :=
    mem_writable.mpr ⟨c, hc, hcanon, hne, ht, rfl⟩
  have hnodup := writable_nodup (e := e) (o := o) hnames
  refine ⟨?_, storeCaptured_stored hnodup hok hmem⟩
  have hfind : (storeCaptured e.toCaptureEngine o.toOutcomes true (writable e o cs) st).finding
      c.target.id = findingAfter e.toCaptureEngine o.toOutcomes c.target := by
    refine ensureCaptureSafety_finding ?_ (List.mem_map_of_mem hmem)
    simpa [List.map_map, Function.comp_def] using hnodup
  rw [← hfind]
  exact (objection_nil (hobj c hc) ht).2.1

theorem orphan_preserved_iff (stopped : Bool) :
    Preserved canonicalState o.toOutcomes c.target stopped (heldBy e o c) st' ↔
      (canonical e cs c = true → ¬ Overlooked canonicalState e.toCaptureEngine o.toOutcomes
        c.target stopped (heldBy e o c) st) := by
  cases hempty : isEmpty (heldBy e o c) with
  | true =>
    -- Nothing was read.
    have hnone := isEmpty_iff.mp hempty
    refine iff_of_true (fun k body hk => ?_) (fun _ hover => ?_)
    · rw [hnone k] at hk
      nomatch hk
    · obtain ⟨-, -, k, body, -, hk, -⟩ := hover
      rw [hnone k] at hk
      nomatch hk
  | false =>
    cases hcanon : canonical e cs c with
    | true =>
      obtain ⟨hproven, hstore⟩ := canonical_stored hnames hc hp hcanon hempty
      rw [preserved_iff stopped hproven hstore]
      simp
    | false =>
      refine iff_of_true ?_ (nofun)
      have hread : (orphanTarget e c).1 = some c.target := by
        cases ht : (orphanTarget e c).1 with
        | none => simp [heldBy, ht, isEmpty] at hempty
        | some t => rw [orphanTarget_eq ht]
      obtain ⟨-, hobj, rfl⟩ := preserveOrphans_clear hp
      exact preserved_of_equivalent ((objection_nil (hobj c hc) hread).2.2 hcanon) stopped

theorem orphan_stored_iff (hcanon : canonical e cs c = true)
    (hne : isEmpty (heldBy e o c) = false) :
    ReallyStored canonicalState c.device (heldBy e o c) st' ↔
      ¬ (Withheld e.toCaptureEngine o.toOutcomes c.target ∧
        HoldsNews canonicalState c.target (heldBy e o c) st) := by
  obtain ⟨hproven, hstore⟩ := canonical_stored hnames hc hp hcanon hne
  have hwithheld := storable_eq_false_iff hproven
  constructor
  · rintro hreally ⟨hw, k, body, hns, hk, hdiffers⟩
    have heq := hreally k body hk
    rw [hstore, storableSnapshots, hns, hwithheld.mpr hw] at heq
    exact hdiffers heq
  · intro hnone k body hk
    rw [hstore, storableSnapshots]
    cases hns : namespaceBackedKind k with
    | false => simp [hk]
    | true =>
      cases hst : storable (findingAfter e.toCaptureEngine o.toOutcomes c.target)
          (seenMarker o.toOutcomes c.target) with
      | true => simp [hk]
      | false =>
        simp only [Bool.not_false, Bool.and_self, if_true, none_or]
        by_contra hdiffers
        exact hnone ⟨hwithheld.mp hst, k, body, hns, hk, hdiffers⟩

theorem record_stored_iff :
    (∃ r ∈ records, r.container = c.name ∧ r.stored = true) ↔
      canonical e cs c = true ∧ isEmpty (heldBy e o c) = false := by
  obtain ⟨-, hobj, -⟩ := preserveOrphans_clear hp
  obtain rfl := (Prod.mk.inj (Prod.mk.inj hp).2).1
  simp only [List.mem_map, exists_exists_and_eq_and]
  constructor
  · rintro ⟨d, hd, hname, hstored⟩
    obtain rfl : d = c := List.inj_on_of_nodup_map hnames hd hc hname
    simp only [orphanRecord, Bool.and_eq_true, Bool.not_eq_true'] at hstored
    exact hstored.1.1
  · rintro ⟨hcanon, hne⟩
    obtain ⟨t, ht, -⟩ := (any_eq_true _ _).mp hcanon
    obtain rfl := orphanTarget_eq ht
    obtain ⟨hdone, hproven, -⟩ := objection_nil (hobj c hc) ht
    exact ⟨c, hc, rfl, by simp [orphanRecord, hcanon, hne, hdone, hproven]⟩

theorem records_truthful_iff :
    (∀ r ∈ records, r.container = c.name → r.stored = true →
        ReallyStored canonicalState c.device (heldBy e o c) st') ↔
      (canonical e cs c = true → ¬ (Withheld e.toCaptureEngine o.toOutcomes c.target ∧
        HoldsNews canonicalState c.target (heldBy e o c) st)) := by
  have hrecord := record_stored_iff hnames hc hp
  constructor
  · rintro hright hcanon ⟨hw, hnews⟩
    have hne : isEmpty (heldBy e o c) = false := by
      obtain ⟨k, body, -, hk, -⟩ := hnews
      rw [← Bool.not_eq_true, isEmpty_iff]
      exact fun hnone => by simp [hnone k] at hk
    obtain ⟨r, hr, hname, hstored⟩ := hrecord.mpr ⟨hcanon, hne⟩
    exact (orphan_stored_iff hnames hc hp hcanon hne).mp (hright r hr hname hstored)
      ⟨hw, hnews⟩
  · intro hnone r hr hname hstored
    obtain ⟨hcanon, hne⟩ := hrecord.mp ⟨r, hr, hname, hstored⟩
    exact (orphan_stored_iff hnames hc hp hcanon hne).mpr (hnone hcanon)

end Facts

/-- Nothing is destroyed unsaved, unless it was overlooked, and a record that says
    a reading was stored is right, unless something new was withheld: in every
    prune and in every replacement, whatever becomes of their accesses. -/
theorem removed_preserved_iff (canonicalState : Kind → String → String) (e : PruneEngine)
    (o : PruneOutcomes) (cs : Listing) (st : Store) (x : Replacement) :
    ((∀ c ∈ (pruneOrphans canonicalState e o cs.containers st).1,
        Preserved canonicalState o.toOutcomes c.target (foundStopped o c) (heldBy e o c)
          (pruneOrphans canonicalState e o cs.containers st).2) ↔
      ∀ c ∈ (pruneOrphans canonicalState e o cs.containers st).1,
        canonical e cs.containers c = true →
          ¬ Overlooked canonicalState e.toCaptureEngine o.toOutcomes c.target (foundStopped o c)
            (heldBy e o c) st) ∧
    (∀ records st', preserveOrphansOnly canonicalState e o cs.containers st = (some records, st') →
      ((∀ c ∈ cs.containers, ∀ r ∈ records, r.container = c.name → r.stored = true →
          ReallyStored canonicalState c.device (heldBy e o c) st') ↔
        ∀ c ∈ cs.containers, canonical e cs.containers c = true →
          ¬ (Withheld e.toCaptureEngine o.toOutcomes c.target ∧
            HoldsNews canonicalState c.target (heldBy e o c) st))) ∧
    (∀ st', captureBeforeReplace e.toCaptureEngine o.toOutcomes x st = some st' →
      x.studentOwned = true → e.writesReference = false →
        (Preserved canonicalState o.toOutcomes x.target x.stopped x.reading.1 st' ↔
          ¬ Overlooked canonicalState e.toCaptureEngine o.toOutcomes x.target x.stopped
            x.reading.1 st)) := by
  refine ⟨?_, ?_, fun st' hst' hstudent href => replaced_preserved_iff hstudent href hst'⟩
  · refine forall_congr' fun c => forall_congr' fun hc => ?_
    obtain ⟨hin, records, hp⟩ := mem_pruneOrphans hc
    exact orphan_preserved_iff cs.distinct hin hp _
  · intro records st' hrecords
    have hp := preserveOrphansOnly_eq hrecords
    refine forall_congr' fun c => forall_congr' fun hc => ?_
    exact records_truthful_iff cs.distinct hc hp

/-! ### Two prunes -/

/-- A router that left the manifest. -/
def oldRouter : Candidate := { name := "as1_R9", device := "as1/R9", frrControl := false }

def oldRouterOnly : Listing := { containers := [oldRouter], distinct := by decide }

/-- The engine of an agent that has found nothing yet. -/
def freshEngine : PruneEngine :=
  { supportsNetnsIdentity := true, observationReadOnly := false, defaultRoot := false
    writesReference := false, hasStore := true, finding := fun _ => .nothing, node := "node0"
    placement := fun _ => none, preservedOrphans := none }

/-- An address its student added since the last capture. -/
def newAddress : Held := fun k =>
  if k = .addrs then some "addr inet eth0 10.0.9.2/24" else none

def oldSave : Store := fun _ k =>
  if k = .addrs then some "addr inet eth0 10.0.9.1/24" else none

/-- Every access succeeds, apart from the reading of the router's identity. -/
def identityRead (now : Option NetnsIdentity) : PruneOutcomes :=
  { load := .ok, recorded := fun _ => some { dev := 4, inode := 81 }, now := fun _ => now
    proven := fun _ => none, reached := fun _ => true, marker := fun _ => false
    answers := fun _ => true, save := .ok, put := fun _ _ => true
    capture := fun _ => (newAddress, .done), durable := fun _ _ => true, interrupted := false
    remove := fun _ => true }

/-- The router runs in the namespace that is on record, and its student's address
    is saved before it is removed or replaced. -/
theorem old_router_preserved :
    let o := identityRead (some { dev := 4, inode := 81 })
    let x : Replacement :=
      { target := oldRouter.target, studentOwned := true, first := (newAddress, .done)
        starts := false, second := (newAddress, .failed) }
    (pruneOrphans (fun _ body => body) freshEngine o [oldRouter] oldSave).1 = [oldRouter] ∧
      (∀ c ∈ (pruneOrphans (fun _ body => body) freshEngine o [oldRouter] oldSave).1,
        Preserved (fun _ body => body) o.toOutcomes c.target (foundStopped o c)
          (heldBy freshEngine o c)
          (pruneOrphans (fun _ body => body) freshEngine o [oldRouter] oldSave).2) ∧
      ∃ st', captureBeforeReplace freshEngine.toCaptureEngine o.toOutcomes x oldSave = some st' ∧
        Preserved (fun _ body => body) o.toOutcomes x.target x.stopped x.reading.1 st' := by
  intro o x
  have hsure : ¬ Doubted freshEngine.toCaptureEngine o.toOutcomes oldRouter.target := by
    unfold Doubted Unidentified
    decide
  have hthm := removed_preserved_iff (fun _ body => body) freshEngine o oldRouterOnly oldSave x
  have hremoved : (pruneOrphans (fun _ body => body) freshEngine o [oldRouter] oldSave).1 =
      [oldRouter] := by decide +kernel
  refine ⟨hremoved, hthm.1.mpr fun c hc _ hover => ?_, _, rfl, ?_⟩
  · have hmem : c ∈ [oldRouter] := hremoved ▸ hc
    rw [List.mem_singleton] at hmem
    exact hsure (hmem ▸ hover.1)
  · exact (hthm.2.2 _ rfl rfl rfl).mpr fun hover => hsure hover.1

/-- The identity of the router's namespace cannot be read. Its student's address
    is not saved, the record says that it is, and the router is removed. -/
theorem unidentified_router_removed :
    ∃ c ∈ (pruneOrphans (fun _ body => body) freshEngine (identityRead none) [oldRouter]
        oldSave).1,
      ¬ Preserved (fun _ body => body) (identityRead none).toOutcomes c.target
        (foundStopped (identityRead none) c) (heldBy freshEngine (identityRead none) c)
        (pruneOrphans (fun _ body => body) freshEngine (identityRead none) [oldRouter] oldSave).2 ∧
      (preserveOrphansOnly (fun _ body => body) freshEngine (identityRead none) [oldRouter]
        oldSave).1 = some [{ container := "as1_R9", device := "as1/R9", stored := true }] := by
  refine ⟨oldRouter, by decide +kernel, fun hpres => ?_, by decide +kernel⟩
  rcases hpres .addrs "addr inet eth0 10.0.9.2/24" (by decide) with heq | ⟨-, hexcused⟩
  · exact absurd heq (by decide +kernel)
  · rcases hexcused with hstopped | hmarker | ⟨n, m, -, hnow, -⟩
    · exact absurd hstopped (by decide)
    · exact absurd hmarker (by decide)
    · exact absurd hnow (by simp [identityRead, knownIdentity])

end Deploy

end Twinet
