import Mathlib.Data.List.ReduceOption
import Twinet.Deploy.StoreCaptured
import Twinet.Lib.Fallible
import Twinet.State.Store

/-!
# Handing Over State

Before devices move to another node, the controller asks the one they are on for
their state. Unless it says otherwise the containers are read first, and the
answer says that it is fresh.

The reading goes through the capture a periodic backup uses, where a device that
has stopped and a namespace that cannot be vouched for are not problems: what is
saved stays saved. The export then hands over what is saved. A save that cannot
be read is skipped there like one that does not exist.

## Main definitions

* `captureBeforeExport`: Read the devices and store what was read.
* `handleStateExport`: The answer, with what is saved afterwards.
* `Fresh`: What an answer has of a device that runs.
* `Accounted`, `Vouched`: When the network state of a device may be stored.
* `Handed`: What has to hold for a device to be handed over.

## Theorems

* `vouched_iff`: The guard of the capture lets through what is accounted for.
* `fresh_export_iff`: An answer that says it is fresh is fresh and complete
  exactly when every device in it is handed over.
-/

namespace Twinet

namespace Agent

open Deploy State List Except

/-- Why a save that exists cannot be read. -/
inductive Damage where
  /-- A file it consists of is missing. -/
  | torn
  /-- Its files can be read and do not fit together. -/
  | corrupt
deriving DecidableEq, Repr

/-- What a node has saved of a lab. -/
structure Saves where
  body : Store
  damage : String → Kind → Option Damage
  devices : List String
  unreadable : ∀ id k, damage id k ≠ none → body id k = none
  known : ∀ id k, damage id k ≠ none → id ∈ devices

inductive RenderMode where
  | platform
  | solve
deriving DecidableEq, Repr

structure ExportDevice where
  id : String
  asn : Nat
  node : String
  container : String
deriving DecidableEq, Repr

/-- The devices of a lab, and which ASes are run by students. -/
structure ExportTopology where
  devices : List ExportDevice
  student : Nat → Bool
  distinct : (devices.map (·.id)).Nodup

def ExportTopology.device (top : ExportTopology) (id : String) : Option ExportDevice :=
  top.devices.find? (·.id = id)

/-- What an agent has on record of a lab. -/
structure ExportServer where
  hasStore : Bool
  hasRuntime : Bool
  node : String
  top : Option ExportTopology
  mode : RenderMode
  /-- The AS of a harness that is not graded; zero for none. -/
  ungraded : Nat
  supportsNetnsIdentity : Bool
  defaultRoot : Bool

structure ExportQuery where
  lab : String
  devices : List String
  fresh : String
deriving DecidableEq, Repr

/-- The containers, and what becomes of every access. -/
structure ExportOutcomes extends Outcomes where
  inspect : String → Option ContainerState
  /-- What a container holds when it is read. -/
  holds : String → Held
  capture : String → CaptureResult
  /-- What was read before a reading failed. -/
  part : String → Held
  interrupted : Bool
  /-- The directory of the lab can be read. -/
  listing : Bool
  /-- There are peers to replicate to, if that can be told. -/
  targets : Option Bool
  /-- Every peer takes what it is sent. -/
  replicates : Bool
  records : Bool

inductive ExportError where
  | noStore
  | noLab
  | listing
  | cannotCapture
  | noTopology
  | unknownDevice (id : String)
  | otherNode (id : String)
  | inspect (id : String)
  | absent (id : String)
  | capture (problems : List Problem) (interrupted : Bool)
  | replicate
  | records
deriving DecidableEq, Repr

structure ExportResponse where
  snapshots : List (String × Kind × String)
  missing : List String
  freshAt : Bool
deriving DecidableEq, Repr

section Export

variable (s : ExportServer) (o : ExportOutcomes) (top : ExportTopology) (d : ExportDevice)

def renderModeForDevice : RenderMode :=
  if s.ungraded ≠ 0 ∧ d.asn = s.ungraded then .platform else s.mode

def deployStudentOwned : Bool := top.student d.asn

def capturesStudentState : Bool :=
  deployStudentOwned top d && renderModeForDevice s d ≠ .solve

variable (saves : Saves) (id : String)

def exportsStudentState : Bool :=
  match s.top with
  | none => true
  | some top =>
    match top.device id with
    | none => false
    | some d => renderModeForDevice s d ≠ .solve

/-- What a reading of a container gives. -/
def ExportOutcomes.reading (container : String) : Held :=
  match o.capture container with
  | .done => o.holds container
  | .notRunning => fun _ => none
  | .failed => o.part container

/-- The engine of one export has found nothing yet. -/
def ExportServer.engine : CaptureEngine :=
  { supportsNetnsIdentity := s.supportsNetnsIdentity, observationReadOnly := false
    defaultRoot := s.defaultRoot, writesReference := false, hasStore := s.hasStore
    finding := fun _ => .nothing }

def ExportDevice.target : Target := { id := d.id, container := d.container }

/-- The devices a capture reads, of those it is asked for. -/
def capturedDevices (only : List String) : List ExportDevice :=
  top.devices.filter fun d => d.node = s.node && deployStudentOwned top d && only.contains d.id

/-- A reading that did not find the container running is not a problem. -/
def captureProblems (devices : List ExportDevice) : List Problem :=
  (devices.filter fun d => o.capture d.container = .failed).map (.capture ·.container)

/-- What is saved after readings were stored: a save that was written can be
    read. -/
def Saves.after (st : Store) (ids : List String) : Saves where
  body := st
  damage := fun id k => if (st id k).isSome then none else saves.damage id k
  devices := saves.devices ++ ids
  unreadable := fun id k h => by
    by_contra hst
    rw [if_pos (Option.isSome_iff_ne_none.mpr hst)] at h
    exact h rfl
  known := fun id k h => by
    by_cases hst : (st id k).isSome = true
    · rw [if_pos hst] at h
      exact absurd rfl h
    · rw [if_neg hst] at h
      exact mem_append_left _ (saves.known id k h)

/-- Read devices and store what was read. -/
def captureSelected (only : List String) (saves : Saves) : Saves × Option ExportError :=
  let devices := capturedDevices s top only
  let stored := storeCaptured s.engine o.toOutcomes true
    (devices.map fun d => (d.target, o.reading d.container)) saves.body
  let problems := captureProblems o devices ++ stored.problems
  (saves.after stored.store (devices.map (·.id)),
    if problems ≠ [] ∨ o.interrupted then some (.capture problems o.interrupted) else none)

/-- Whether a listed device is to be read. -/
def selectDevice : Except ExportError (Option String) :=
  match top.device id with
  | none => .error (.unknownDevice id)
  | some d =>
    if d.node ≠ s.node then .error (.otherNode id)
    else if !capturesStudentState s top d then .ok none
    else
      match o.inspect d.container with
      | none => .error (.inspect id)
      | some .absent => .error (.absent id)
      | some _ => .ok (some id)

/-- Send what is saved to the peers that keep copies. Nothing is read where
    there are none. -/
def replicateDurableState : Option ExportError :=
  match o.targets with
  | none => some .replicate
  | some false => none
  | some true =>
    if saves.devices.any fun id => allKinds.any fun k => saves.damage id k = some .corrupt then
      some .replicate
    else if !o.records then some .replicate
    else if !o.replicates then some .replicate
    else none

/-- Read the listed devices, store what was read and send it to the peers. -/
def captureBeforeExport (ids : List String) (saves : Saves) : Saves × Option ExportError :=
  if !s.hasRuntime || !s.hasStore then (saves, some .cannotCapture)
  else
    match s.top with
    | none => (saves, some .noTopology)
    | some top =>
      match ids.mapM (selectDevice s o top) with
      | .error err => (saves, some err)
      | .ok found =>
        let selected := found.reduceOption
        if selected = [] then (saves, replicateDurableState o saves)
        else
          match captureSelected s o top selected saves with
          | (saves', some err) => (saves', some err)
          | (saves', none) => (saves', replicateDurableState o saves')

/-- The readable saves of a device. -/
def currentSnapshots : List (String × Kind × String) :=
  allKinds.filterMap fun k => (saves.body id k).map fun body => (id, k, body)

/-- What is handed over of the listed devices. -/
def exportSaves (ids : List String) (saves : Saves) (freshAt : Bool) : ExportResponse :=
  let exported := ids.filter (exportsStudentState s)
  { snapshots := exported.flatMap (currentSnapshots saves)
    missing := exported.filter fun id => (currentSnapshots saves id).isEmpty
    freshAt := freshAt }

/-- The devices a query is about. A store names devices by their directories. -/
def ExportQuery.listed (q : ExportQuery) (saves : Saves) : List String :=
  if q.devices = [] then saves.devices.map safe else q.devices

/-- Answer a query, with what is saved afterwards. -/
def handleStateExport (q : ExportQuery) (saves : Saves) :
    Saves × Except ExportError ExportResponse :=
  if !s.hasStore then (saves, .error .noStore)
  else if q.lab = "" then (saves, .error .noLab)
  else if q.devices = [] ∧ !o.listing then (saves, .error .listing)
  else
    let ids := q.listed saves
    let captured :=
      if q.fresh ≠ "false" then captureBeforeExport s o ids saves else (saves, none)
    match captured with
    | (saves', some err) => (saves', .error err)
    | (saves', none) =>
      if !o.records then (saves', .error .records)
      else (saves', .ok (exportSaves s ids saves' (q.fresh ≠ "false")))

end Export

/-! ### What a fresh answer has to be -/

section Spec

variable (s : ExportServer) (o : ExportOutcomes) (top : ExportTopology) (d : ExportDevice)

/-- The device was read in full. -/
def Read : Prop := capturesStudentState s top d = true ∧ o.capture d.container = .done

/-- Every kind of state a running device holds was read and is in the answer. -/
def Fresh (resp : ExportResponse) : Prop :=
  o.inspect d.container = some .running → ∀ k body, o.holds d.container k = some body →
    Read s o top d ∧ (d.id, k, body) ∈ resp.snapshots

/-- The device was looked at in time and is in the namespace on record, or has none on record
    and was shown to hold what is saved. Where namespaces have no identity nothing is asked. -/
def Accounted : Prop :=
  s.supportsNetnsIdentity = true → o.reached d.container = true ∧
    ((∃ n, recordedNamespace o.toOutcomes d.id = some n ∧
        knownIdentity (o.now d.container) = some n) ∨
      (recordedNamespace o.toOutcomes d.id = none ∧ knownIdentity (o.proven d.container) ≠ none))

/-- A kind of state may be stored: it is on the filesystem, or the namespace is accounted for
    and the container was not seen to carry the marker of a replay that is due. -/
def Vouched (k : Kind) : Prop :=
  namespaceBackedKind k = true → Accounted s o d ∧
    ¬ (o.answers d.container = true ∧ o.marker d.container = true)

/-- What a running device holds is read in full, and what of it may not be
    stored is what is saved. A save that cannot be read is replaced. -/
structure Handed (saves : Saves) : Prop where
  read : o.inspect d.container = some .running → ∀ k body, o.holds d.container k = some body →
    Read s o top d ∧ (Vouched s o d k ∨ saves.body d.id k = some body)
  replaced : ∀ k, saves.damage d.id k ≠ none →
    Read s o top d ∧ o.holds d.container k ≠ none ∧ Vouched s o d k

end Spec

section Lemmas

variable {s : ExportServer} {o : ExportOutcomes} {top : ExportTopology} {d : ExportDevice}
  {saves saves' : Saves} {id : String} {k : Kind} {body : String}

theorem device_id (h : top.device id = some d) : d.id = id := by
  simpa using find?_some h

theorem device_mem (h : top.device id = some d) : d ∈ top.devices := mem_of_find?_eq_some h

theorem mem_currentSnapshots {id' : String} :
    (id, k, body) ∈ currentSnapshots saves id' ↔ id = id' ∧ saves.body id' k = some body := by
  simp only [currentSnapshots, mem_filterMap, Option.map_eq_some_iff, Prod.mk.injEq]
  constructor
  · rintro ⟨k, -, body, hbody, rfl, rfl, rfl⟩
    exact ⟨rfl, hbody⟩
  · rintro ⟨rfl, hbody⟩
    exact ⟨k, mem_allKinds k, body, hbody, rfl, rfl, rfl⟩

variable {ids : List String}

theorem mem_exportSaves {freshAt : Bool} :
    (id, k, body) ∈ (exportSaves s ids saves freshAt).snapshots ↔
      (id ∈ ids ∧ exportsStudentState s id = true) ∧ saves.body id k = some body := by
  simp only [exportSaves, mem_flatMap, mem_filter, mem_currentSnapshots]
  constructor
  · rintro ⟨id', hid, rfl, hbody⟩
    exact ⟨hid, hbody⟩
  · rintro ⟨hid, hbody⟩
    exact ⟨id, hid, rfl, hbody⟩

theorem handleStateExport_fresh {q : ExportQuery} {resp : ExportResponse}
    (h : handleStateExport s o q saves = (saves', .ok resp)) (hfresh : resp.freshAt = true) :
    captureBeforeExport s o (q.listed saves) saves = (saves', none) ∧
      resp = exportSaves s (q.listed saves) saves' true := by
  revert h
  fun_cases handleStateExport s o q saves with
  | case6 _ _ _ ids captured saves'' hcap =>
    rintro ⟨⟩
    -- what is fresh was captured
    have hf : q.fresh ≠ "false" := by simpa [exportSaves] using hfresh
    rw [show captured = captureBeforeExport s o ids saves from if_pos hf] at hcap
    exact ⟨hcap, by simp [hf, ids]⟩
  | _ => nofun

/-- What a capture that succeeded leaves of a listed device. -/
structure Stored (s : ExportServer) (o : ExportOutcomes) (top : ExportTopology) (d : ExportDevice)
    (saves saves' : Saves) : Prop where
  complete : capturesStudentState s top d = true → o.capture d.container ≠ .failed
  body : ∀ k, saves'.body d.id k =
    if capturesStudentState s top d then
      (storableSnapshots o.toOutcomes (findingAfter s.engine o.toOutcomes d.target) d.target
        (o.reading d.container) k).or (saves.body d.id k)
    else saves.body d.id k
  damage : ∀ k, saves'.damage d.id k =
    if (saves'.body d.id k).isSome then none else saves.damage d.id k

theorem selectDevice_ok {id : String} {sel : Option String}
    (h : selectDevice s o top id = .ok sel) : ∃ d, top.device id = some d ∧ d.node = s.node ∧
      sel = if capturesStudentState s top d then some id else none := by
  revert h
  fun_cases selectDevice s o top id with
  | case3 d hd hnode hc | case6 d hd hnode hc =>
    rintro ⟨⟩
    exact ⟨d, hd, not_not.mp hnode, by simp_all⟩
  | _ => nofun

theorem mapM_select_ok {found : List (Option String)}
    (h : ids.mapM (selectDevice s o top) = .ok found) :
    (∀ id ∈ ids, ∃ d, top.device id = some d ∧ d.node = s.node) ∧
      ∀ id, id ∈ found.reduceOption ↔
        id ∈ ids ∧ ∃ d, top.device id = some d ∧ capturesStudentState s top d = true := by
  obtain ⟨hall, hmem⟩ := Fallible.mem_mapM h
  refine ⟨fun id hid => ?_, fun id => ?_⟩
  · obtain ⟨sel, hsel⟩ := hall id hid
    obtain ⟨d, hd, hnode, -⟩ := selectDevice_ok hsel
    exact ⟨d, hd, hnode⟩
  rw [reduceOption_mem_iff, hmem]
  constructor
  · rintro ⟨x, hx, hsel⟩
    obtain ⟨d, hd, -, hif⟩ := selectDevice_ok hsel
    split_ifs at hif with hc
    cases hif
    exact ⟨hx, d, hd, hc⟩
  · rintro ⟨hid, d, hd, hc⟩
    obtain ⟨sel, hsel⟩ := hall id hid
    obtain ⟨d', hd', -, rfl⟩ := selectDevice_ok hsel
    obtain rfl := Option.some.inj (hd.symm.trans hd')
    exact ⟨id, hid, by rw [hsel, if_pos hc]⟩

theorem captureSelected_ok {only : List String}
    (h : captureSelected s o top only saves = (saves', none)) (hd : d ∈ top.devices)
    (hnode : d.node = s.node) (hids : capturesStudentState s top d = true ↔ d.id ∈ only) :
    Stored s o top d saves saves' := by
  unfold captureSelected at h
  simp only [ne_eq, Prod.mk.injEq, ite_eq_right_iff, reduceCtorEq, imp_false, not_or, not_not,
    append_eq_nil_iff] at h
  obtain ⟨hsaves, ⟨hread, hok⟩, -⟩ := h
  set readings := (capturedDevices s top only).map fun d => (d.target, o.reading d.container)
    with hreadings
  have hids' : readings.map (·.1.id) = (capturedDevices s top only).map (·.id) := by
    rw [hreadings, map_map]
    rfl
  have hnodup : (readings.map (·.1.id)).Nodup := by
    rw [hids']
    exact top.distinct.sublist (Sublist.map _ filter_sublist)
  -- a device that is captured is among those asked for
  have hmine : capturesStudentState s top d = true → d ∈ capturedDevices s top only := fun hc => by
    have hs : deployStudentOwned top d = true := by
      rw [capturesStudentState, Bool.and_eq_true] at hc
      exact hc.1
    exact mem_filter.mpr ⟨hd, by simp [hnode, hs, hids.mp hc]⟩
  refine ⟨fun hc hfailed => ?_, fun k => ?_, fun k => by rw [← hsaves]; rfl⟩
  · rw [captureProblems, map_eq_nil_iff] at hread
    have hmem : d ∈ (capturedDevices s top only).filter (o.capture ·.container = .failed) :=
      mem_filter.mpr ⟨hmine hc, by simp [hfailed]⟩
    rw [hread] at hmem
    nomatch hmem
  · rw [← hsaves]
    by_cases hc : capturesStudentState s top d = true
    · rw [if_pos hc]
      exact storeCaptured_stored hnodup hok
        (mem_map_of_mem (f := fun d => (d.target, o.reading d.container)) (hmine hc)) k
    · rw [if_neg hc]
      -- nothing is stored for a device that is not
      refine congrFun (storeCaptured_other ?_) k
      rw [hids']
      rintro hmem
      obtain ⟨d', hd', hid⟩ := mem_map.mp hmem
      have honly : d'.id ∈ only := by
        have := (mem_filter.mp hd').2
        simp only [Bool.and_eq_true, contains_iff_mem] at this
        exact this.2
      exact hc (hids.mpr (hid ▸ honly))

theorem captureBeforeExport_ok (h : captureBeforeExport s o ids saves = (saves', none)) :
    ∃ top, s.top = some top ∧ ∀ id ∈ ids, ∃ d, top.device id = some d ∧
      Stored s o top d saves saves' := by
  have hdevice : ∀ {top found}, ids.mapM (selectDevice s o top) = .ok found → ∀ id ∈ ids,
      ∃ d, top.device id = some d ∧ d.node = s.node ∧
        (capturesStudentState s top d = true ↔ d.id ∈ found.reduceOption) := by
    intro top found hsel id hid
    obtain ⟨hon, hfound⟩ := mapM_select_ok hsel
    obtain ⟨d, hd, hnode⟩ := hon id hid
    refine ⟨d, hd, hnode, ?_⟩
    rw [hfound, device_id hd]
    refine ⟨fun hc => ⟨hid, d, hd, hc⟩, fun ⟨_, d', hd', hc⟩ => ?_⟩
    rwa [Option.some.inj (hd.symm.trans hd')] at *
  revert h
  fun_cases captureBeforeExport s o ids saves with
  | case4 _ top htop found hsel selected hnone =>
    -- Nothing is read and nothing is written.
    intro h
    obtain ⟨rfl, -⟩ := Prod.mk.inj h
    refine ⟨top, htop, fun id hid => ?_⟩
    obtain ⟨d, hd, -, hids⟩ := hdevice hsel id hid
    have hc : ¬ capturesStudentState s top d = true := fun hc => by
      rw [hids, show found.reduceOption = [] from hnone] at hc
      nomatch hc
    refine ⟨d, hd, fun hc' => absurd hc' hc, fun k => by rw [if_neg hc], fun k => ?_⟩
    by_cases hbody : (saves.body d.id k).isSome = true
    · rw [if_pos hbody]
      by_contra hne
      rw [saves.unreadable _ _ hne] at hbody
      nomatch hbody
    · rw [if_neg hbody]
  | case6 _ top htop found hsel selected _ saves'' hcap =>
    intro h
    obtain ⟨rfl, -⟩ := Prod.mk.inj h
    refine ⟨top, htop, fun id hid => ?_⟩
    obtain ⟨d, hd, hnode, hids⟩ := hdevice hsel id hid
    exact ⟨d, hd, captureSelected_ok hcap (device_mem hd) hnode hids⟩
  | _ => nofun

/-- The guard of a capture by a new engine lets through what is vouched for. -/
theorem vouched_iff : Vouched s o d k ↔ (namespaceBackedKind k = true →
    storable (findingAfter s.engine o.toOutcomes d.target) (seenMarker o.toOutcomes d.target) =
      true) := by
  refine imp_congr_right fun _ => ?_
  have hmarked : seenMarker o.toOutcomes d.target = true ↔
      o.answers d.container = true ∧ o.marker d.container = true := Bool.and_eq_true_iff
  -- a device that is not reached is not proven
  have hclear : ((findingAfter s.engine o.toOutcomes d.target).lostNamespaceState = false ∧
      (findingAfter s.engine o.toOutcomes d.target).namespaceUnproven = false) ↔
        Accounted s o d := by
    simp only [findingAfter, ExportServer.engine, ExportDevice.target, settledFinding, Accounted]
    by_cases hs : s.supportsNetnsIdentity = true
    · by_cases hr : o.reached d.container = true
      · simp only [hs, hr, if_true, true_and, forall_const]
        generalize recordedNamespace o.toOutcomes d.id = recorded
        generalize knownIdentity (o.now d.container) = now
        generalize knownIdentity (o.proven d.container) = proven
        fun_cases settleCaptureSafety Finding.nothing recorded now proven with
        | case1 _ _ h => simp [Finding.nothing, Finding.namespaceUnproven] at h
        | case5 => simp_all
        | _ => simp_all [Finding.nothing, Finding.namespaceUnproven]
      · simp [hs, hr, Finding.nothing, Finding.namespaceUnproven]
    · simp [hs, Finding.nothing, Finding.namespaceUnproven]
  have hpending : (findingAfter s.engine o.toOutcomes d.target).pendingRestore = false := by
    simp only [findingAfter, settledFinding, settleCaptureSafety]
    repeat' split
    all_goals rfl
  rw [← hclear, ← hmarked, storable, hpending]
  simp [and_assoc]

section

variable (h : Stored s o top d saves saves')

include h

theorem Stored.body_of_read (hread : Read s o top d) :
    (Vouched s o d k → saves'.body d.id k = (o.holds d.container k).or (saves.body d.id k)) ∧
      (¬ Vouched s o d k → saves'.body d.id k = saves.body d.id k) := by
  rw [h.body, if_pos hread.1, storableSnapshots, ExportOutcomes.reading, hread.2, vouched_iff]
  cases hns : namespaceBackedKind k with
  | false => simp
  | true =>
    cases hst : storable (findingAfter s.engine o.toOutcomes d.target)
        (seenMarker o.toOutcomes d.target) <;> simp

theorem Stored.body_of_not_read (hread : ¬ Read s o top d) :
    saves'.body d.id k = saves.body d.id k := by
  rw [h.body]
  by_cases hc : capturesStudentState s top d = true
  · have hstopped : o.capture d.container = .notRunning := by
      cases hcap : o.capture d.container with
      | done => exact absurd ⟨hc, hcap⟩ hread
      | notRunning => rfl
      | failed => exact absurd hcap (h.complete hc)
    rw [if_pos hc, storableSnapshots, ExportOutcomes.reading, hstopped]
    simp
  · rw [if_neg hc]

theorem Stored.fresh_iff (hid : d.id ∈ ids) (hexp : exportsStudentState s d.id = true) :
    (Fresh s o top d (exportSaves s ids saves' true) ∧ ∀ k, saves'.damage d.id k = none) ↔
      Handed s o top d saves := by
  have hin : ∀ {k body}, (d.id, k, body) ∈ (exportSaves s ids saves' true).snapshots ↔
      saves'.body d.id k = some body := by
    intro k body
    rw [mem_exportSaves]
    exact and_iff_right ⟨hid, hexp⟩
  constructor
  · rintro ⟨hfresh, hwhole⟩
    refine ⟨fun hrun k body hk => ?_, fun k hdam => ?_⟩
    · obtain ⟨hread, hmem⟩ := hfresh hrun k body hk
      refine ⟨hread, ?_⟩
      by_cases hv : Vouched s o d k
      · exact .inl hv
      · exact .inr (((h.body_of_read hread).2 hv).symm.trans (hin.mp hmem))
    · -- The save was written over, so it was read and could be stored.
      have hbody := saves.unreadable _ _ hdam
      have hnew : saves'.body d.id k ≠ none := fun hnone => by
        have := hwhole k
        rw [h.damage, hnone] at this
        exact hdam this
      by_cases hread : Read s o top d
      · by_cases hv : Vouched s o d k
        · refine ⟨hread, fun hk => hnew ?_, hv⟩
          rw [(h.body_of_read hread).1 hv, hk, hbody]
          rfl
        · exact absurd (((h.body_of_read hread).2 hv).trans hbody) hnew
      · exact absurd ((h.body_of_not_read hread).trans hbody) hnew
  · rintro ⟨hread, hrep⟩
    refine ⟨fun hrun k body hk => ?_, fun k => ?_⟩
    · obtain ⟨hr, hv⟩ := hread hrun k body hk
      refine ⟨hr, hin.mpr ?_⟩
      by_cases hvouched : Vouched s o d k
      · rw [(h.body_of_read hr).1 hvouched, hk]
        rfl
      · rw [(h.body_of_read hr).2 hvouched]
        exact hv.resolve_left hvouched
    · rw [h.damage]
      by_cases hdam : saves.damage d.id k = none
      · rw [hdam, ite_self]
      · obtain ⟨hr, hk, hv⟩ := hrep k hdam
        obtain ⟨body, hbody⟩ := Option.ne_none_iff_exists'.mp hk
        rw [(h.body_of_read hr).1 hv, hbody]
        rfl

end

end Lemmas

/-- An answer that says it is fresh is fresh and complete exactly when every
    listed device whose state is exported is handed over: what it holds was read
    in full, the guard withholds nothing new, and a save that cannot be read is
    replaced. -/
theorem fresh_export_iff (s : ExportServer) (o : ExportOutcomes) (q : ExportQuery)
    (saves saves' : Saves) (resp : ExportResponse)
    (h : handleStateExport s o q saves = (saves', .ok resp)) (hfresh : resp.freshAt = true) :
    (∀ id ∈ q.listed saves, exportsStudentState s id = true → ∀ top d, s.top = some top →
        top.device id = some d →
        Fresh s o top d resp ∧ ∀ k, saves'.damage id k = none) ↔
      ∀ id ∈ q.listed saves, exportsStudentState s id = true → ∀ top d, s.top = some top →
        top.device id = some d → Handed s o top d saves := by
  obtain ⟨hcap, rfl⟩ := handleStateExport_fresh h hfresh
  obtain ⟨top, htop, hstored⟩ := captureBeforeExport_ok hcap
  refine forall₂_congr fun id hid => forall_congr' fun hexp => forall₄_congr
    fun top' d htop' hd => ?_
  obtain rfl := Option.some.inj (htop.symm.trans htop')
  obtain ⟨d', hd', hst⟩ := hstored id hid
  obtain rfl := Option.some.inj (hd.symm.trans hd')
  obtain rfl := device_id hd
  exact hst.fresh_iff hid hexp

/-! ### Two exports -/

/-- A router that moves to another node. -/
def movedRouter : ExportDevice :=
  { id := "as1/R1", asn := 1, node := "node0", container := "as1_R1" }

def movedRouterOnly : ExportTopology :=
  { devices := [movedRouter], student := fun _ => true, distinct := by decide }

def sourceNode : ExportServer :=
  { hasStore := true, hasRuntime := true, node := "node0", top := some movedRouterOnly
    mode := .platform, ungraded := 0, supportsNetnsIdentity := true, defaultRoot := false }

def moveQuery : ExportQuery := { lab := "cos461", devices := ["as1/R1"], fresh := "" }

def routerAddress (address : String) : Held := fun k => if k = .addrs then some address else none

/-- The router runs and holds an address that was added since the last capture.
    Every access succeeds, apart from the reading of its identity. -/
def runningRouter (now : Option NetnsIdentity) : ExportOutcomes :=
  { load := .ok, recorded := fun _ => some { dev := 4, inode := 81 }, now := fun _ => now
    proven := fun _ => none, reached := fun _ => true, marker := fun _ => false
    answers := fun _ => true, save := .ok, put := fun _ _ => true
    inspect := fun _ => some .running, holds := fun _ => routerAddress "addr inet eth0 10.0.9.2/24"
    capture := fun _ => .done, part := fun _ _ => none, interrupted := false
    listing := true, targets := some false, replicates := true, records := true }

/-- An older address of the router, and perhaps a save of its configuration that
    has lost its body. -/
def routerSaves (damaged : Bool) : Saves where
  body := fun _ => routerAddress "addr inet eth0 10.0.9.1/24"
  damage := fun id k => if damaged && id = "as1/R1" && k = .frr then some .torn else none
  devices := ["as1/R1"]
  unreadable := fun id k h => by
    by_cases hk : k = .frr
    · subst hk
      rfl
    · exact absurd (if_neg (by simp [hk])) h
  known := fun id k h => by
    by_cases hid : id = "as1/R1"
    · simp [hid]
    · exact absurd (if_neg (by simp [hid])) h

/-- The router is in the namespace on record: its new address is read, stored
    and handed over. -/
theorem router_handed_over :
    let o := runningRouter (some { dev := 4, inode := 81 })
    let answer := handleStateExport sourceNode o moveQuery (routerSaves false)
    ∃ resp, answer.2 = .ok resp ∧ resp.freshAt = true ∧
      Fresh sourceNode o movedRouterOnly movedRouter resp := by
  intro o answer
  have hanswer : answer = (answer.1, .ok (exportSaves sourceNode ["as1/R1"] answer.1 true)) := rfl
  refine ⟨_, congrArg Prod.snd hanswer, rfl, ?_⟩
  have hthm := fresh_export_iff sourceNode o moveQuery (routerSaves false) _ _ hanswer rfl
  refine (hthm.mpr ?_ "as1/R1" (by simp [ExportQuery.listed, moveQuery]) rfl _ _ rfl rfl).1
  rintro id hid - top d htop hd
  obtain rfl : movedRouterOnly = top := Option.some.inj htop
  obtain rfl : id = "as1/R1" := by simpa [ExportQuery.listed, moveQuery] using hid
  obtain rfl : movedRouter = d := Option.some.inj hd
  have haccounted : Accounted sourceNode o movedRouter :=
    fun _ => ⟨rfl, .inl ⟨⟨4, 81⟩, by decide, by decide⟩⟩
  refine ⟨fun _ k body _ => ⟨⟨rfl, rfl⟩, .inl fun _ => ⟨haccounted, by decide⟩⟩, fun k hk => ?_⟩
  exact absurd rfl hk

/-- The identity of the router's namespace cannot be read, and a save of its
    configuration has lost its body. The answer says it is fresh, has the old
    address and not the new one, and is silent about the configuration. -/
theorem stale_export_fresh :
    let answer := handleStateExport sourceNode (runningRouter none) moveQuery (routerSaves true)
    (runningRouter none).inspect "as1_R1" = some .running ∧
      (runningRouter none).holds "as1_R1" .addrs = some "addr inet eth0 10.0.9.2/24" ∧
      answer.1.damage "as1/R1" .frr = some .torn ∧
      answer.2.toOption = some
        { snapshots := [("as1/R1", .addrs, "addr inet eth0 10.0.9.1/24")], missing := []
          freshAt := true } := by
  decide +kernel

end Agent

end Twinet
