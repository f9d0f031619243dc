import Twinet.State.Store

/-!
# Importing State

A controller that moves a device hands its saved state to the node that will run
it. The agent checks the fence and the holds of the lab the request is for, and
then stores one object of the request after the other, up to the first that is
refused. The answer names every object and its digest.

The objects say themselves which lab and device they are of. For a record the
agent compares the lab with that of the request. For a captured artefact it does
not, and it takes over the artefact's kind, which is part of a path, and its
digest, which may be left out.

## Main definitions

* `handleStateImport`: The answer to a request.
* `Confined`, `Acknowledgeable`: The conditions on its objects.
* `Truthful`: The lab has what an acknowledgement names.

## Theorems

* `importObjects_outside`: What a request leaves alone.
* `importObjects_last`: What is current after a request.
* `import_confined_truthful_iff`: A request changes only its own lab if it is
  confined, and is acknowledged truthfully if it is acknowledgeable.
-/

namespace Twinet

namespace Agent

open State List Except

/-- An object of a request. -/
inductive WireObject where
  | snapshot (a : Artefact)
  | record (a : Artefact)

open WireObject

/-- What an acknowledgement names. -/
inductive StateKey where
  | snapshot (device kind : String)
  | record (kind : String)
deriving DecidableEq, Repr

/-- An object that was stored, and its digest. -/
structure StateAck where
  key : StateKey
  digest : String
deriving DecidableEq, Repr

structure StateImportRequest where
  lab : String
  snapshots : List Artefact
  records : List Artefact

open StateImportRequest

/-- The objects of a request, in the order they are stored in. -/
def StateImportRequest.objects (req : StateImportRequest) : List WireObject :=
  req.snapshots.map .snapshot ++ req.records.map .record

/-- What becomes of everything a request depends on: the checks before it, and
    for each object the fence, the write and the installation of a record. -/
structure ImportEnv where
  hasStore : Bool
  fenced : Bool
  held : Bool
  acquired : Bool
  now : Nat
  fence : Nat → Bool
  writes : Nat → Bool
  installs : Nat → Bool

inductive ImportError where
  | noStore
  | noLab
  | fence
  | held
  | busy
  | put (e : PutError)
  | otherLab
  | install
deriving DecidableEq, Repr

section Import

variable (sha256 : List UInt8 → Fin 32 → UInt8) (root : Dir) (env : ImportEnv) (lab : String)

/-- Store one object, and acknowledge it. A captured artefact without content is
    passed over. -/
def importObject (i : Nat) (disk : Disk sha256) : WireObject →
    Disk sha256 × Except ImportError (Bool × Option StateAck)
  | .snapshot a =>
    if !env.fence i then (disk, .error .fence)
    else if a.content = [] then (disk, .ok (false, none))
    else
      match put sha256 root env.now (env.writes i) disk a with
      | (disk, .error e) => (disk, .error (.put e))
      | (disk, .ok isNew) =>
        (disk, .ok (isNew, some { key := .snapshot a.device a.kind, digest := a.digest }))
  | .record a =>
    if !env.fence i then (disk, .error .fence)
    else if a.lab ≠ lab then (disk, .error .otherLab)
    else
      match putRecord sha256 root env.now (env.writes i) disk a with
      | (disk, .error e) => (disk, .error (.put e))
      | (disk, .ok isNew) =>
        if !env.installs i then (disk, .error .install)
        else (disk, .ok (isNew, some { key := .record a.kind, digest := a.digest }))

/-- Store objects up to the first that is refused: how many were new, and the
    acknowledgements. -/
def importObjects (i : Nat) (disk : Disk sha256) : List WireObject →
    Disk sha256 × Except ImportError (Nat × List StateAck)
  | [] => (disk, .ok (0, []))
  | w :: ws =>
    match importObject sha256 root env lab i disk w with
    | (disk, .error e) => (disk, .error e)
    | (disk, .ok (isNew, ack)) =>
      match importObjects (i + 1) disk ws with
      | (disk, .error e) => (disk, .error e)
      | (disk, .ok (stored, acks)) =>
        (disk, .ok (stored + isNew.toNat, ack.toList ++ acks))

/-- Answer a request. -/
def handleStateImport (disk : Disk sha256) (req : StateImportRequest) :
    Disk sha256 × Except ImportError (Nat × List StateAck) :=
  if !env.hasStore then (disk, .error .noStore)
  else if req.lab = "" then (disk, .error .noLab)
  else if !env.fenced then (disk, .error .fence)
  else if env.held then (disk, .error .held)
  else if !env.acquired then (disk, .error .busy)
  else importObjects sha256 root env req.lab 0 disk req.objects

/-! ### What an object does -/

/-- Where an object goes. -/
def WireObject.dir : WireObject → Dir
  | .snapshot a => snapshotDir root a.lab a.device a.kind
  | .record a => recordDir root a.lab a.kind

def WireObject.artefact : WireObject → Artefact
  | .snapshot a => a
  | .record a => a

/-- What the acknowledgement of an object calls it. -/
def WireObject.key : WireObject → StateKey
  | .snapshot a => .snapshot a.device a.kind
  | .record a => .record a.kind

/-- Where the lab keeps what an acknowledgement names. -/
def keyDir : StateKey → Dir
  | .snapshot device kind => snapshotDir root lab device kind
  | .record kind => recordDir root lab kind

/-- The object is stored and not passed over. -/
def WireObject.stores : WireObject → Bool
  | .snapshot a => a.content ≠ []
  | .record _ => true

/-- The object is not refused for what it is. -/
def WireObject.sound : WireObject → Bool
  | .snapshot a => a.content = [] || (snapshotProblem sha256 a).isNone
  | .record a => a.lab = lab && (recordProblem sha256 a).isNone

/-- The last object that goes to a directory. -/
def lastAt (ws : List WireObject) (d : Dir) : Option WireObject :=
  (ws.filter fun w => w.stores && w.dir root = d).getLast?

end Import

section Facts

variable {sha256 : List UInt8 → Fin 32 → UInt8} {root : Dir} {env : ImportEnv} {lab : String}
  {i : Nat} {disk : Disk sha256} {w : WireObject} {ws : List WireObject} {d : Dir}

/-- Where an object is stored, and what is stored. -/
def stored (sha256 : List UInt8 → Fin 32 → UInt8) (root : Dir) (env : ImportEnv) (i : Nat)
    (disk : Disk sha256) (w : WireObject) : Disk sha256 × Except PutError Bool :=
  putAt (env.writes i) disk (w.dir root) (sealAt sha256 env.now w.artefact)

variable {disk' : Disk sha256} {result : Except ImportError (Bool × Option StateAck)}

theorem importObject_cases (hw : importObject sha256 root env lab i disk w = (disk', result)) :
    (disk' = disk ∧ ((∃ e, result = .error e) ∨
      (w.stores = false ∧ w.sound sha256 lab = true ∧ result = .ok (false, none)))) ∨
    (w.stores = true ∧ w.sound sha256 lab = true ∧ disk' = (stored sha256 root env i disk w).1 ∧
      ((∃ e, result = .error e) ∨
        ∃ isNew, (stored sha256 root env i disk w).2 = .ok isNew ∧
          result = .ok (isNew, some { key := w.key, digest := w.artefact.digest }))) := by
  obtain rfl : _ = disk' := congrArg Prod.fst hw
  obtain rfl : _ = result := congrArg Prod.snd hw
  clear hw
  cases w with
  | snapshot a =>
    simp only [importObject, stores, sound, key, artefact]
    by_cases hfence : env.fence i = true
    swap
    · simp [hfence]
    -- an artefact without content is passed over
    by_cases hempty : a.content = []
    · simp [hfence, hempty]
    cases hproblem : snapshotProblem sha256 a with
    | some e => simp [hfence, hempty, put, hproblem]
    | none =>
      right
      have hput : put sha256 root env.now (env.writes i) disk a =
          stored sha256 root env i disk (.snapshot a) := by
        rw [put, hproblem]
        rfl
      rw [hput]
      rcases stored sha256 root env i disk (.snapshot a) with ⟨disk', _ | isNew⟩ <;>
        simp [hfence, hempty]
  | record a =>
    simp only [importObject, stores, sound, key, artefact]
    by_cases hfence : env.fence i = true
    swap
    · simp [hfence]
    -- a record of another lab is refused
    by_cases hlab : a.lab = lab
    swap
    · simp [hfence, hlab]
    cases hproblem : recordProblem sha256 a with
    | some e => simp [hfence, hlab, putRecord, hproblem]
    | none =>
      right
      have hput : putRecord sha256 root env.now (env.writes i) disk a =
          stored sha256 root env i disk (.record a) := by
        rw [putRecord, hproblem]
        rfl
      rw [hput]
      rcases stored sha256 root env i disk (.record a) with ⟨disk', _ | isNew⟩ <;>
        cases env.installs i <;> simp [hfence, hlab]

theorem importObject_of_ne (hw : importObject sha256 root env lab i disk w = (disk', result))
    (h : w.sound sha256 lab = true → w.stores = true → w.dir root ≠ d) : disk' d = disk d := by
  rcases importObject_cases hw with ⟨rfl, -⟩ | ⟨hstores, hsound, rfl, -⟩
  · rfl
  · exact putAt_of_ne (h hsound hstores).symm

variable {r : Bool × Option StateAck}

theorem importObject_ok (hw : importObject sha256 root env lab i disk w = (disk', .ok r)) :
    w.sound sha256 lab = true ∧
      (w.stores = false ∧ r.2 = none ∨
        w.stores = true ∧ r.2 = some { key := w.key, digest := w.artefact.digest } ∧
          (disk' (w.dir root)).digest = some (digestOf sha256 w.artefact.content)) := by
  rcases importObject_cases hw with
    ⟨-, ⟨e, he⟩ | ⟨hstores, hsound, hok⟩⟩ |
    ⟨hstores, hsound, rfl, ⟨e, he⟩ | ⟨isNew, hput, hok⟩⟩
  · cases he
  · exact ⟨hsound, .inl ⟨hstores, by rw [ok.inj hok]⟩⟩
  · cases he
  · exact ⟨hsound, .inr ⟨hstores, by rw [ok.inj hok], putAt_self hput⟩⟩

theorem importObjects_cons_error {e : ImportError}
    (hw : importObject sha256 root env lab i disk w = (disk', .error e)) :
    importObjects sha256 root env lab i disk (w :: ws) = (disk', .error e) := by
  rw [importObjects, hw]

theorem importObjects_cons_ok (hw : importObject sha256 root env lab i disk w = (disk', .ok r)) :
    importObjects sha256 root env lab i disk (w :: ws) =
      let rest := importObjects sha256 root env lab (i + 1) disk' ws
      (rest.1, rest.2.map fun x => (x.1 + r.1.toNat, r.2.toList ++ x.2)) := by
  obtain ⟨isNew, ack⟩ := r
  rw [importObjects, hw]
  simp only
  rcases importObjects sha256 root env lab (i + 1) disk' ws with ⟨disk'', _ | ⟨n, acks⟩⟩ <;> rfl

/-- A request leaves every directory alone that no object before the first
    unsound one goes to. -/
theorem importObjects_outside
    (h : ∀ w ∈ ws.takeWhile (·.sound sha256 lab), w.stores = true → w.dir root ≠ d) :
    (importObjects sha256 root env lab i disk ws).1 d = disk d := by
  induction ws generalizing i disk with
  | nil => rfl
  | cons w ws ih =>
    have hhead : w.sound sha256 lab = true → w.stores = true → w.dir root ≠ d :=
      fun hsound => h w (by simp [hsound])
    rcases hw : importObject sha256 root env lab i disk w with ⟨disk', e | r⟩
    · rw [importObjects_cons_error hw]
      exact importObject_of_ne hw hhead
    · have hsound := (importObject_ok hw).1
      rw [importObjects_cons_ok hw]
      simp only
      rw [ih, importObject_of_ne hw hhead]
      intro y hy
      exact h y (by simp [hsound, hy])

/-- Nothing goes to a directory that is the last of no object. -/
theorem importObjects_unreached (h : lastAt root ws d = none) :
    (importObjects sha256 root env lab i disk ws).1 d = disk d := by
  refine importObjects_outside fun z hz hstores hdir => ?_
  have hempty := filter_eq_nil_iff.mp (getLast?_eq_none_iff.mp h) z
    ((takeWhile_sublist _).subset hz)
  exact hempty (by simp [hstores, hdir])

theorem importObjects_absent (h : (importObjects sha256 root env lab i disk ws).1 d = .absent) :
    disk d = .absent := by
  induction ws generalizing i disk with
  | nil => exact h
  | cons w ws ih =>
    rcases hw : importObject sha256 root env lab i disk w with ⟨disk', result⟩
    have hhead : disk' d = .absent → disk d = .absent := by
      rcases importObject_cases hw with ⟨rfl, -⟩ | ⟨-, -, rfl, -⟩
      · exact id
      · exact putAt_absent
    cases result with
    | error e =>
      rw [importObjects_cons_error hw] at h
      exact hhead h
    | ok r =>
      rw [importObjects_cons_ok hw] at h
      exact hhead (ih h)

theorem lastAt_cons :
    lastAt root (w :: ws) d =
      (lastAt root ws d).or (if w.stores = true ∧ w.dir root = d then some w else none) := by
  unfold lastAt
  rw [filter_cons]
  by_cases hw : w.stores = true ∧ w.dir root = d
  · rw [if_pos hw, if_pos (by simp [hw.1, hw.2]), getLast?_cons]
    cases (ws.filter fun w => w.stores && w.dir root = d).getLast? <;> rfl
  · rw [if_neg hw, if_neg (by simpa using hw), Option.or_none]

theorem importObjects_ok {n : Nat} {acks : List StateAck}
    (h : (importObjects sha256 root env lab i disk ws).2 = .ok (n, acks)) :
    (∀ w ∈ ws, w.sound sha256 lab = true) ∧
      acks = (ws.filter (·.stores)).map (fun w => ⟨w.key, w.artefact.digest⟩) ∧
      ∀ d y, lastAt root ws d = some y →
        ((importObjects sha256 root env lab i disk ws).1 d).digest =
          some (digestOf sha256 y.artefact.content) := by
  induction ws generalizing i disk n acks with
  | nil =>
    simp only [importObjects, ok.injEq, Prod.mk.injEq] at h
    exact ⟨by simp, by simp [← h.2], by simp [lastAt]⟩
  | cons w ws ih =>
    rcases hw : importObject sha256 root env lab i disk w with ⟨disk', e | r⟩
    · rw [importObjects_cons_error hw] at h
      nomatch h
    · rw [importObjects_cons_ok hw] at h ⊢
      obtain ⟨hsound, hacked⟩ := importObject_ok hw
      cases hrest : (importObjects sha256 root env lab (i + 1) disk' ws).2 with
      | error e =>
        simp only [hrest] at h
        exact absurd h (by simp [Except.map])
      | ok x =>
        obtain ⟨m, acks'⟩ := x
        obtain ⟨hall, hacks, hlast⟩ := ih hrest
        simp only [hrest, Except.map, ok.injEq, Prod.mk.injEq] at h
        refine ⟨?_, ?_, fun d y hy => ?_⟩
        · exact forall_mem_cons.mpr ⟨hsound, hall⟩
        · rw [← h.2, hacks, filter_cons]
          rcases hacked with ⟨hno, hack⟩ | ⟨hyes, hack, -⟩ <;> simp [*]
        · simp only
          rw [lastAt_cons] at hy
          cases hlater : lastAt root ws d with
          | some z =>
            rw [hlater, Option.some_or] at hy
            rw [hlast d z hlater, Option.some.inj hy]
          | none =>
            -- Nothing that comes later goes there.
            rw [hlater, Option.none_or] at hy
            split_ifs at hy with hhere
            rw [← Option.some.inj hy, importObjects_unreached hlater, ← hhere.2]
            rcases hacked with ⟨hno, -⟩ | ⟨-, -, hcurrent⟩
            · exact absurd hhere.1 (by simp [hno])
            · exact hcurrent

/-- Nothing a request depends on fails. -/
def ImportEnv.succeeds : ImportEnv :=
  { hasStore := true, fenced := true, held := false, acquired := true, now := 1
    fence := fun _ => true, writes := fun _ => true, installs := fun _ => true }

theorem importObject_succeeds (root : Dir) (i : Nat) (disk : Disk sha256)
    (hsound : w.sound sha256 lab = true) :
    ∃ disk' r, importObject sha256 root .succeeds lab i disk w = (disk', .ok r) := by
  cases w with
  | snapshot a =>
    simp only [importObject, ImportEnv.succeeds, Bool.not_true, Bool.false_eq_true, if_false]
    by_cases hempty : a.content = []
    · rw [if_pos hempty]
      exact ⟨_, _, rfl⟩
    · have hproblem : snapshotProblem sha256 a = none := by
        simpa [sound, hempty] using hsound
      obtain ⟨disk', isNew, hput⟩ := putAt_writes disk (snapshotDir root a.lab a.device a.kind)
        (sealAt sha256 1 a)
      simp only [if_neg hempty, put, hproblem, hput]
      exact ⟨_, _, rfl⟩
  | record a =>
    simp only [importObject, ImportEnv.succeeds, Bool.not_true, Bool.false_eq_true, if_false]
    have hlab : a.lab = lab ∧ recordProblem sha256 a = none := by
      simpa [sound] using hsound
    obtain ⟨disk', isNew, hput⟩ := putAt_writes disk (recordDir root a.lab a.kind)
      (sealAt sha256 1 a)
    simp only [if_neg (not_not.mpr hlab.1), putRecord, hlab.2, hput]
    exact ⟨_, _, rfl⟩

theorem importObjects_succeeds (root : Dir) (disk : Disk sha256) (i : Nat)
    (hsound : ∀ w ∈ ws, w.sound sha256 lab = true) :
    ∃ n acks, (importObjects sha256 root .succeeds lab i disk ws).2 = .ok (n, acks) := by
  induction ws generalizing i disk with
  | nil => exact ⟨0, [], rfl⟩
  | cons w ws ih =>
    obtain ⟨hw, hws⟩ := forall_mem_cons.mp hsound
    obtain ⟨disk', r, hr⟩ := importObject_succeeds root i disk hw
    obtain ⟨n, acks, hrest⟩ := ih disk' (i + 1) hws
    rw [importObjects_cons_ok hr]
    simp only [hrest]
    exact ⟨_, _, rfl⟩

theorem importObjects_reaches (disk : Disk sha256) (i : Nat)
    (hw : w ∈ ws.takeWhile (·.sound sha256 lab)) (hstores : w.stores = true) :
    (importObjects sha256 root .succeeds lab i disk ws).1 (w.dir root) ≠ .absent := by
  induction ws generalizing i disk with
  | nil => simp at hw
  | cons v ws ih =>
    rw [takeWhile_cons] at hw
    split_ifs at hw with hsound
    · obtain ⟨disk', r, hr⟩ := importObject_succeeds root i disk hsound
      rw [importObjects_cons_ok hr]
      rcases mem_cons.mp hw with rfl | hw
      · intro habsent
        have hcurrent := importObjects_absent habsent
        rcases (importObject_ok hr).2 with ⟨hno, -⟩ | ⟨-, -, hdigest⟩
        · exact absurd hstores (by simp [hno])
        · rw [hcurrent, Slot.digest_absent] at hdigest
          nomatch hdigest
      · exact ih _ _ hw
    · simp at hw

end Facts

/-! ### Requests -/

section Requests

variable (sha256 : List UInt8 → Fin 32 → UInt8) (root : Dir) (req : StateImportRequest)

/-- Every captured artefact that is stored, which are those before the first that
    is refused for what it is, goes to a directory of the lab of the request. -/
def Confined : Prop :=
  ∀ a ∈ req.snapshots.takeWhile (fun a => (snapshot a).sound sha256 req.lab),
    a.content ≠ [] → labDir root req.lab <+: snapshotDir root a.lab a.device a.kind

/-- Unless an object is refused for what it is, every object that is stored says
    its digest, and the last object that goes to the place its acknowledgement
    names has that digest. -/
def Acknowledgeable : Prop :=
  (∀ w ∈ req.objects, w.sound sha256 req.lab = true) → ∀ w ∈ req.objects, w.stores = true →
    w.artefact.digest ≠ "" ∧ ∃ y, lastAt root req.objects (keyDir root req.lab w.key) = some y ∧
      digestOf sha256 y.artefact.content = w.artefact.digest

/-- The lab has the object an acknowledgement names, with its digest. -/
def Truthful (disk : Disk sha256) (ack : StateAck) : Prop :=
  ∃ a, disk (keyDir root req.lab ack.key) = .held a ∧
    digestOf sha256 a.artefact.content = ack.digest

end Requests

section Iff

variable {sha256 : List UInt8 → Fin 32 → UInt8} {root : Dir} {req : StateImportRequest}
  {env : ImportEnv} {disk : Disk sha256}

theorem Slot.held_of_digest {slot : Slot sha256} {digest : String}
    (h : slot.digest = some digest) :
    ∃ a, slot = .held a ∧ digestOf sha256 a.artefact.content = digest := by
  cases slot with
  | absent | unreadable => simp [Slot.digest] at h
  | held a => exact ⟨a, rfl, a.digest_eq.symm.trans (Option.some.inj h)⟩

theorem handleStateImport_cases (root : Dir) (req : StateImportRequest) (env : ImportEnv)
    (disk : Disk sha256) :
    (handleStateImport sha256 root env disk req).1 = disk ∧
        (∃ e, (handleStateImport sha256 root env disk req).2 = .error e) ∨
      handleStateImport sha256 root env disk req =
        importObjects sha256 root env req.lab 0 disk req.objects := by
  unfold handleStateImport
  split_ifs <;> simp

theorem handleStateImport_succeeds (root : Dir) (disk : Disk sha256) (hlab : req.lab ≠ "") :
    handleStateImport sha256 root .succeeds disk req =
      importObjects sha256 root .succeeds req.lab 0 disk req.objects := by
  simp [handleStateImport, ImportEnv.succeeds, hlab]

theorem labDir_le_recordDir (root : Dir) (lab kind : String) :
    labDir root lab <+: recordDir root lab kind :=
  prefix_append _ _

theorem Confined.objects (h : Confined sha256 root req) {w : WireObject}
    (hw : w ∈ req.objects.takeWhile (·.sound sha256 req.lab)) (hstores : w.stores = true) :
    labDir root req.lab <+: w.dir root := by
  rw [StateImportRequest.objects, takeWhile_append] at hw
  have hsnapshot : ∀ v ∈ (req.snapshots.map snapshot).takeWhile
      (·.sound sha256 req.lab), v.stores = true → labDir root req.lab <+: v.dir root := by
    intro v hv hvstores
    rw [takeWhile_map, mem_map] at hv
    obtain ⟨a, ha, rfl⟩ := hv
    exact h a ha (by simpa [stores] using hvstores)
  split_ifs at hw with hall
  · rcases mem_append.mp hw with hw | hw
    · rw [← (takeWhile_sublist _).eq_of_length hall] at hw
      exact hsnapshot w hw hstores
    · have hsound := all_eq_true.mp all_takeWhile w hw
      obtain ⟨a, -, rfl⟩ := mem_map.mp ((takeWhile_sublist _).subset hw)
      have hlab : a.lab = req.lab := by
        simp only [sound, Bool.and_eq_true, decide_eq_true_eq] at hsound
        exact hsound.1
      rw [dir, hlab]
      exact labDir_le_recordDir root req.lab a.kind
  · exact hsnapshot w hw hstores

/-- A request for a lab changes only its directories, whatever is stored and
    whatever fails, if it is confined; and whatever is stored and whatever fails,
    all its acknowledgements are true, if it is acknowledgeable. -/
theorem import_confined_truthful_iff (sha256 : List UInt8 → Fin 32 → UInt8) (root : Dir)
    (req : StateImportRequest) (hlab : req.lab ≠ "") :
    ((∀ env disk d, ¬ labDir root req.lab <+: d →
        (handleStateImport sha256 root env disk req).1 d = disk d) ↔
      Confined sha256 root req) ∧
    ((∀ env disk n acks, (handleStateImport sha256 root env disk req).2 = .ok (n, acks) →
        ∀ ack ∈ acks,
          Truthful sha256 root req (handleStateImport sha256 root env disk req).1 ack) ↔
      Acknowledgeable sha256 root req) := by
  refine ⟨⟨fun hconfined a ha hcontent => ?_, fun h env disk d hd => ?_⟩,
    fun htrue hsound w hw hstores => ?_, fun h env disk n acks hok ack hack => ?_⟩
  · -- On an empty disk the artefact is found where it was stored.
    by_contra houtside
    have hkept := hconfined .succeeds (fun _ => .absent) _ houtside
    rw [handleStateImport_succeeds root _ hlab] at hkept
    refine importObjects_reaches (w := .snapshot a) (fun _ => .absent) 0 ?_
      (by simpa [stores] using hcontent) hkept
    rw [objects, takeWhile_append, takeWhile_map]
    split_ifs
    · exact mem_append_left _ (mem_map_of_mem ((takeWhile_sublist _).subset ha))
    · exact mem_map_of_mem ha
  · rcases handleStateImport_cases root req env disk with ⟨hdisk, -⟩ | hrun
    · rw [hdisk]
    · rw [hrun]
      refine importObjects_outside fun w hw hstores hdir => hd ?_
      rw [← hdir]
      exact h.objects hw hstores
  · -- On an empty disk only what the request stored can be named.
    obtain ⟨n, acks, hok⟩ := importObjects_succeeds root (fun _ => .absent) 0 hsound
    obtain ⟨-, hacks, hlast⟩ := importObjects_ok hok
    have hack : (⟨w.key, w.artefact.digest⟩ : StateAck) ∈ acks := by
      rw [hacks]
      exact mem_map_of_mem (mem_filter.mpr ⟨hw, hstores⟩)
    have hrun := handleStateImport_succeeds root (fun _ => (.absent : Slot sha256)) hlab
    obtain ⟨a, ha, hdigest⟩ := htrue .succeeds (fun _ => .absent) n acks (by rw [hrun, hok]) _ hack
    refine ⟨fun hempty => digestOf_ne a.artefact.content (hdigest.trans hempty), ?_⟩
    rw [hrun] at ha
    cases hy : lastAt root req.objects (keyDir root req.lab w.key) with
    | none =>
      rw [importObjects_unreached hy] at ha
      nomatch ha
    | some y =>
      have hcurrent := hlast _ y hy
      rw [ha] at hcurrent
      refine ⟨y, rfl, ?_⟩
      rw [← Option.some.inj hcurrent, a.digest_eq]
      exact hdigest
  · rcases handleStateImport_cases root req env disk with ⟨-, e, he⟩ | hrun
    · rw [he] at hok
      nomatch hok
    · rw [hrun] at hok ⊢
      obtain ⟨hsound, hacks, hlast⟩ := importObjects_ok hok
      rw [hacks] at hack
      obtain ⟨w, hw, rfl⟩ := mem_map.mp hack
      obtain ⟨hin, hstores⟩ := mem_filter.mp hw
      obtain ⟨-, y, hy, hdigest⟩ := h hsound w hin hstores
      obtain ⟨a, ha, hcontent⟩ := Slot.held_of_digest (hlast _ y hy)
      exact ⟨a, ha, hcontent.trans hdigest⟩

end Iff

/-! ### Two requests -/

/-- The saved configuration of a router, as the controller sends it. -/
def routerConfig (lab digest : String) : Artefact :=
  { lab := lab, device := "as1/R1", kind := "frr", takenAt := 5, digest := digest, bytes := 1
    content := [7] }

def moveRouter (lab digest : String) : StateImportRequest :=
  { lab := "cos461", snapshots := [routerConfig lab digest], records := [] }

/-- A digest that is the same for everything. -/
def flatDigest : List UInt8 → Fin 32 → UInt8 := fun _ _ => 0

/-- A configuration of the lab's own router, with its digest, is stored for it
    and truthfully acknowledged. -/
theorem own_router_imported :
    let req := moveRouter "cos461" (digestOf flatDigest [7])
    let answer := handleStateImport flatDigest ["state"] .succeeds (fun _ => .absent) req
    (∀ d, ¬ labDir ["state"] "cos461" <+: d → answer.1 d = .absent) ∧
      ∀ n acks, answer.2 = .ok (n, acks) →
        ∀ ack ∈ acks, Truthful flatDigest ["state"] req answer.1 ack := by
  intro req answer
  have hthm := import_confined_truthful_iff flatDigest ["state"] req (by decide)
  refine ⟨fun d hd => hthm.1.mpr ?_ .succeeds _ d hd, hthm.2.mpr ?_ .succeeds _⟩
  · unfold Confined
    decide +kernel
  · intro _ w hw _
    obtain rfl : w = .snapshot (routerConfig "cos461" (digestOf flatDigest [7])) := by
      simpa [req, objects, moveRouter] using hw
    refine ⟨by decide +kernel, .snapshot (routerConfig "cos461" (digestOf flatDigest [7])), ?_, rfl⟩
    simp [req, lastAt, objects, moveRouter, stores, dir,
      key, keyDir, routerConfig]

/-- A configuration that says it is of another lab is stored there, and where it
    does not say its digest the acknowledgement has none. -/
theorem other_lab_imported :
    let answer := handleStateImport flatDigest ["state"] .succeeds (fun _ => .absent)
      (moveRouter "cos333" "")
    ¬ labDir ["state"] "cos461" <+: snapshotDir ["state"] "cos333" "as1/R1" "frr" ∧
      (answer.1 (snapshotDir ["state"] "cos333" "as1/R1" "frr")).digest =
        some (digestOf flatDigest [7]) ∧
      (answer.1 (snapshotDir ["state"] "cos461" "as1/R1" "frr")).digest = none ∧
      answer.2.toOption = some (1, [{ key := .snapshot "as1/R1" "frr", digest := "" }]) := by
  decide +kernel

end Agent

end Twinet
