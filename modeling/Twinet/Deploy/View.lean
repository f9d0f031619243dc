import Twinet.Deploy.Run

/-!
# One Device of a Deployment

A plan works on all devices of a node at once, but what concerns one device is
changed by its own steps only, and those wait for each other. So the state of a
device after any history of a plan is the one its own effects lead to, in the
order create, configure, ready, whatever else ran in between.

## Main definitions

* `DeviceView`: What concerns one device.
* `DeviceView.apply`: What an effect does to it.
* `deviceEffects`: What the steps of a device have done.

## Theorems

* `view_of_other`: An effect on one device is nothing to another.
* `view_of_own`: An effect on a device does to its view what it does to the
  device.
* `view_run`: The state of a device after a history of a plan.
* `disk_run`, `link_run`, `mode_run`: The record after a history of a plan.
-/

namespace Twinet

namespace Deploy

open List Option

/-- What concerns one device. -/
structure DeviceView where
  container : Option Container
  control : Option Container
  marker : Bool
  pendingRestore : Bool
  lostNamespaceState : Bool
  unprovenNamespace : Bool
  created : Bool
  record : Option DeviceRecord
  baseline : Option NetnsIdentity

def World.view (w : World) (id : String) : DeviceView :=
  { container := w.container id, control := w.control id, marker := w.marker id
    pendingRestore := w.pendingRestore id, lostNamespaceState := w.lostNamespaceState id
    unprovenNamespace := w.unprovenNamespace id, created := w.createdContainers id
    record := w.tracker.devices id, baseline := w.tracker.namespaces id }

open World

/-- The device an effect is about. -/
def Effect.device : Effect → Option Device
  | replace d => some d
  | create d => some d
  | start d => some d
  | control d => some d
  | markCreated d => some d
  | configure d => some d
  | owe d => some d
  | replay d => some d
  | recordNamespace d => some d
  | markConfigured d => some d
  | markReady d => some d
  | _ => none

/-- The record of a device whose container was made, and of one whose
    configuration was applied. -/
def createdRecord (e : Engine) (d : Device) : DeviceRecord :=
  { specHash := (e.desired d).specHash, configHash := "", fileHash := "", commandHash := ""
    readyHash := "" }

def configuredRecord (e : Engine) (d : Device) : DeviceRecord :=
  { fullRecord e d with readyHash := "" }

namespace DeviceView

variable (e : Engine) (top : Topology) (env : RunEnv) (d : Device) (v : DeviceView)

def replace : DeviceView :=
  if v.container.any (mustReplace e d) then
    { v with
      container := none
      control := if (e.desired d).controlHash.isSome then none else v.control
      marker := false
      lostNamespaceState := v.lostNamespaceState || env.captureFindsLost d.id }
  else v

def create : DeviceView :=
  if v.container.any (·.state != .absent) then v
  else { v with container := some (newContainer e top d), created := true }

def owes : DeviceView :=
  if restores e top d then
    { v with pendingRestore := true, marker := env.marks d.id || v.marker }
  else v

def start : DeviceView :=
  match v.container with
  | some c =>
    if c.state.joinable then v
    else
      owes e top env d
        { v with container := some { c with state := .running, netns := env.born d.id } }
  | none => v

def ensureControl : DeviceView :=
  match (e.desired d).controlHash, v.container with
  | some hash, some primary =>
    if v.control.any (keepsControl hash (some primary)) then v
    else { v with control := some (newControl e top hash primary.netns) }
  | _, _ => v

/-- A replay takes place in this state of the device. -/
def replays : Bool :=
  (e.restoreStudentState && e.shouldForceStudentReset d && studentOwned top d) ||
    (restores e top d && (v.pendingRestore || (env.probe d.id && v.marker)))

def replay : DeviceView :=
  if replays e top env d v then
    { v with
      pendingRestore := false
      marker := !env.marks d.id && v.marker
      lostNamespaceState := false }
  else { v with lostNamespaceState := false }

def recordNamespace : DeviceView :=
  match v.container with
  | some c =>
    if e.supportsNetnsIdentity && !(v.unprovenNamespace && !v.created) then
      { v with baseline := some c.netns }
    else v
  | none => v

/-- What an effect on the device does to what concerns it. -/
def apply : Effect → DeviceView → DeviceView
  | .replace _, v => v.replace e env d
  | .create _, v => v.create e top d
  | .start _, v => v.start e top env d
  | .control _, v => v.ensureControl e top d
  | .markCreated _, v => { v with record := some (createdRecord e d) }
  | .owe _, v => if v.lostNamespaceState then v.owes e top env d else v
  | .replay _, v => v.replay e top env d
  | .recordNamespace _, v => v.recordNamespace e
  | .markConfigured _, v => { v with record := some (configuredRecord e d) }
  | .markReady _, v => { v with record := some (fullRecord e d) }
  | _, v => v

end DeviceView

open DeviceView

section Views

variable {e : Engine} {top : Topology} {env : RunEnv} {eff : Effect}

/-- Effects on other devices leave a device alone. -/
theorem view_of_other {id : String} (hne : ∀ d, eff.device = some d → id ≠ d.id)
    (w : World) : (applyEffect e top env eff w).view id = w.view id := by
  cases eff with
  | pull | verify | configure | wire | markLink | markMode => rfl
  | replace d | create d | owe d | replay d =>
    simp only [applyEffect, applyReplace, applyCreate, restoreIfNeeded, applyReplay]
    split_ifs <;> simp [view, setContainer, hne d rfl]
  | start d =>
    rw [applyEffect]
    fun_cases applyStart with
    | case2 =>
      simp only [restoreIfNeeded]
      split_ifs <;> simp [view, setContainer, hne d rfl]
    | _ => rfl
  | control d =>
    rw [applyEffect]
    fun_cases applyControl <;> simp [view, setControl, hne d rfl]
  | markCreated d | markConfigured d | markReady d =>
    simp [applyEffect, view, mark, Record.setDevice, hne d rfl]
  | recordNamespace d =>
    rw [applyEffect]
    fun_cases applyRecordNamespace <;> simp [view, mark, Record.setNamespace, hne d rfl]

theorem view_container (w : World) (id : String) : (w.view id).container = w.container id := rfl

theorem replays_eq (d : Device) (w : World) :
    replays e top env d w = (w.view d.id).replays e top env d := rfl

variable {d : Device}

/-- Effects on a device act on its view. -/
theorem view_of_own (h : eff.device = some d) (w : World) :
    (applyEffect e top env eff w).view d.id = (w.view d.id).apply e top env d eff := by
  have howes : ∀ w : World, (restoreIfNeeded e top env d w).view d.id =
      (w.view d.id).owes e top env d := by
    intro w
    simp only [restoreIfNeeded, owes]
    by_cases hr : restores e top d = true
    · rw [if_pos hr, if_pos hr]
      cases hm : env.marks d.id <;> simp [view]
    · rw [if_neg hr, if_neg hr]
  -- an effect on links or the mode is on no device
  cases eff with
  | pull | verify | wire | markLink | markMode => cases h
  | replace d' | create d' =>
    cases h
    simp only [applyEffect, applyReplace, applyCreate, apply, DeviceView.replace, create,
      view_container]
    split_ifs with hif <;> simp [view, setContainer, hif]
  | start d' =>
    cases h
    simp only [applyEffect, applyStart, apply, start, view_container]
    cases w.container d.id with
    | none => rfl
    | some c =>
      by_cases hj : c.state.joinable = true
      · simp [hj]
      · simp only [hj, Bool.false_eq_true, if_false, howes]
        simp [view, setContainer]
  | control d' =>
    cases h
    change (applyControl e top d w).view d.id = (w.view d.id).ensureControl e top d
    fun_cases applyControl e top d w with
    | case1 hash hhash c hc hkeeps => simp [ensureControl, view, *]
    | case2 hash hhash c hc hkeeps => simp [ensureControl, view, setControl, *]
    | _ => simp [ensureControl, view, *]
  | configure d' => rfl
  | owe d' =>
    cases h
    simp only [applyEffect, apply]
    have hcond : (w.view d.id).lostNamespaceState = w.lostNamespaceState d.id := rfl
    rw [hcond]
    by_cases hl : w.lostNamespaceState d.id = true
    · rw [if_pos hl, if_pos hl, howes]
    · rw [if_neg hl, if_neg hl]
  | replay d' =>
    cases h
    simp only [applyEffect, applyReplay, apply, replay]
    rw [← replays_eq]
    by_cases hr : replays e top env d w = true
    · rw [if_pos hr, if_pos hr]
      cases hm : env.marks d.id <;> simp [view]
    · rw [if_neg hr, if_neg hr]
      simp [view]
  | recordNamespace d' =>
    cases h
    simp only [applyEffect, applyRecordNamespace, apply, recordNamespace, view_container]
    cases hc : w.container d.id with
    | none => rfl
    | some c =>
      have hunproven : ((w.view d.id).unprovenNamespace && !(w.view d.id).created) =
        w.unproven d.id := rfl
      simp only [hunproven]
      by_cases hs : (e.supportsNetnsIdentity && !w.unproven d.id) = true
      · rw [if_pos hs, if_pos hs]
        simp [view, mark, Record.setNamespace, hc]
      · rw [if_neg hs, if_neg hs]
  | markCreated d' | markConfigured d' | markReady d' =>
    cases h
    simp [applyEffect, apply, view, mark, Record.setDevice, createdRecord, configuredRecord]

theorem step_of_device {j : Step} (hj : eff ∈ j.effects) :
    eff.device = some d ↔ j = .create d ∨ j = .configure d ∨ j = .ready d := by
  cases j <;> simp only [Step.effects, mem_cons, not_mem_nil, or_false] at hj
  case ready => simp [hj, Effect.device]
  case create => rcases hj with rfl | rfl | rfl | rfl | rfl <;> simp [Effect.device]
  case configure => rcases hj with rfl | rfl | rfl | rfl | rfl <;> simp [Effect.device]
  all_goals rcases hj with rfl | rfl <;> simp [Effect.device]

theorem apply_recorded (d : Device) (eff : Effect) (v : DeviceView) :
    (v.apply e top env d eff).record =
        (match eff with
          | .markCreated _ => some (createdRecord e d)
          | .markConfigured _ => some (configuredRecord e d)
          | .markReady _ => some (fullRecord e d)
          | _ => v.record) ∧
      (v.apply e top env d eff).baseline =
        (match eff with
          | .recordNamespace _ => (v.recordNamespace e).baseline
          | _ => v.baseline) ∧
      (v.apply e top env d eff).unprovenNamespace = v.unprovenNamespace := by
  have howes : ∀ v : DeviceView, (v.owes e top env d).record = v.record ∧
      (v.owes e top env d).baseline = v.baseline ∧
      (v.owes e top env d).unprovenNamespace = v.unprovenNamespace := by
    intro v
    unfold owes
    split_ifs <;> exact ⟨rfl, rfl, rfl⟩
  cases eff with
  | replace | create | replay =>
    simp only [apply, DeviceView.replace, create, replay]
    split_ifs <;> exact ⟨rfl, rfl, rfl⟩
  | start =>
    simp only [apply]
    fun_cases start e top env d v with
    | case2 => exact howes _
    | _ => exact ⟨rfl, rfl, rfl⟩
  | control =>
    simp only [apply]
    fun_cases ensureControl e top d v <;> exact ⟨rfl, rfl, rfl⟩
  | owe =>
    simp only [apply]
    split_ifs
    · exact howes _
    · exact ⟨rfl, rfl, rfl⟩
  | recordNamespace =>
    -- the only effect that moves a baseline
    have hrest : (v.recordNamespace e).record = v.record ∧
        (v.recordNamespace e).unprovenNamespace = v.unprovenNamespace := by
      fun_cases recordNamespace e v <;> exact ⟨rfl, rfl⟩
    exact ⟨hrest.1, rfl, hrest.2⟩
  | _ => exact ⟨rfl, rfl, rfl⟩

theorem apply_container (top : Topology) (env : RunEnv) (d : Device)
    (h : eff ∈ (Step.configure d).effects ∨ eff ∈ (Step.ready d).effects) (v : DeviceView) :
    (v.apply e top env d eff).container = v.container ∧
      (v.apply e top env d eff).control = v.control := by
  simp only [Step.effects, mem_cons, not_mem_nil, or_false] at h
  rcases h with (rfl | rfl | rfl | rfl | rfl) | rfl
  · exact ⟨rfl, rfl⟩
  · simp only [apply, owes]
    split_ifs <;> exact ⟨rfl, rfl⟩
  · simp only [apply, replay]
    split_ifs <;> exact ⟨rfl, rfl⟩
  · simp only [apply]
    fun_cases recordNamespace e v <;> exact ⟨rfl, rfl⟩
  · exact ⟨rfl, rfl⟩
  · exact ⟨rfl, rfl⟩

open Schedule

/-- What the steps of a device have done, in order. -/
def deviceEffects (h : List (Step × Effect)) (d : Device) : List Effect :=
  performed h (.create d) ++ performed h (.configure d) ++ performed h (.ready d)

variable {r : Readings} {w : World}

theorem configure_of_create (hr : e.renders = true)
    (hc : diffCreate e top r w d = true) : diffConfigure e top r w d = true := by
  simp only [diffCreate, observeDevice, Bool.or_eq_true] at hc
  simp only [diffConfigure, observeDevice, observedConfigure, lost, hr, Bool.true_and,
    Bool.or_eq_true]
  rcases hc with hc | hc
  · exact .inl (.inl (.inl (.inr hc)))
  · exact .inl (.inr (.inl hc))

variable {h : List (Step × Effect)}

theorem performed_nil_of_unfinished {j n : Step} (hist : History (dirtyPlan e top r w) h)
    (hn : n ∈ Step.needs e top r w j)
    (hunfinished : performed h n ≠ n.effects) : performed h j = [] := by
  by_contra hne
  exact hunfinished (hist.needs_finished hne hn)

/-- A device sees its own effects only, in their order. -/
theorem view_run (hist : History (dirtyPlan e top r w) h) (hd : d ∈ top.devicesOnNode e.node)
    (w₀ : World) :
    (runPlan e top env w₀ h).view d.id =
      (deviceEffects h d).foldl (·.apply e top env d ·) (w₀.view d.id) := by
  induction hist with
  | nil => rfl
  | @step h j eff rest before job next _ ih =>
    have hnext : j.effects = performed h j ++ eff :: rest := next
    have hmem : eff ∈ j.effects := by simp [hnext]
    have hunfinished : performed h j ≠ j.effects := by simp [hnext]
    rw [runPlan, run_concat]
    change (applyEffect e top env eff (runPlan e top env w₀ h)).view d.id = _
    by_cases hown : eff.device = some d
    · rw [view_of_own hown, ih]
      have hlast : deviceEffects (h ++ [(j, eff)]) d = deviceEffects h d ++ [eff] := by
        unfold deviceEffects
        rcases (step_of_device hmem).mp hown with rfl | rfl | rfl
        · -- While the container is made, nothing later has begun.
          have hplan := create_mem_planSteps.mp job
          have hconf : performed h (.configure d) = [] :=
            performed_nil_of_unfinished before (by simp [Step.needs, hplan.2])
              hunfinished
          have hready : performed h (.ready d) = [] := by
            by_contra hne
            obtain ⟨ev, hev⟩ := exists_mem_of_ne_nil _ hne
            have hjob := before.mem_jobs (mem_performed.mp hev)
            have hconfigure := configure_of_create (ready_mem_planSteps.mp hjob).2.1 hplan.2
            exact hne (performed_nil_of_unfinished before (n := .configure d)
              (by simp [Step.needs, hconfigure]) (by simp [hconf, Step.effects]))
          rw [performed_concat_self, performed_concat_of_ne _ _ (by simp),
            performed_concat_of_ne _ _ (by simp), hconf, hready]
          simp
        · have hplan := configure_mem_planSteps.mp job
          have hready : performed h (.ready d) = [] :=
            performed_nil_of_unfinished before (by simp [Step.needs, hplan.2])
              hunfinished
          rw [performed_concat_self, performed_concat_of_ne _ _ (by simp),
            performed_concat_of_ne _ _ (by simp), hready]
          simp
        · rw [performed_concat_self, performed_concat_of_ne _ _ (by simp),
            performed_concat_of_ne _ _ (by simp)]
          simp
      rw [hlast, foldl_append]
      rfl
    · have hother : ∀ d', eff.device = some d' → d.id ≠ d'.id := by
        intro d' hd' hid
        have hnode : d' ∈ top.devicesOnNode e.node := by
          rcases (step_of_device hmem).mp hd' with rfl | rfl | rfl
          · exact (create_mem_planSteps.mp job).1
          · exact (configure_mem_planSteps.mp job).1
          · exact (ready_mem_planSteps.mp job).1
        have heq := Topology.eq_of_id (Topology.mem_devicesOnNode.mp hnode).1
          (Topology.mem_devicesOnNode.mp hd).1 hid.symm
        exact hown (heq ▸ hd')
      have hsame : deviceEffects (h ++ [(j, eff)]) d = deviceEffects h d := by
        unfold deviceEffects
        have hne : ∀ k, k = Step.create d ∨ k = .configure d ∨ k = .ready d → j ≠ k := by
          rintro k hk rfl
          exact hown ((step_of_device hmem).mpr hk)
        rw [performed_concat_of_ne _ _ (hne _ (by simp)),
          performed_concat_of_ne _ _ (hne _ (by simp)),
          performed_concat_of_ne _ _ (hne _ (by simp))]
      rw [view_of_other hother, ih, hsame]

/-! ### What a plan starts from -/

theorem find_device {node : String} (hd : d ∈ top.devicesOnNode node) :
    (top.devicesOnNode node).find? (·.id == d.id) = some d := by
  have hsome : ((top.devicesOnNode node).find? (·.id == d.id)).isSome :=
    find?_isSome.mpr ⟨d, hd, beq_self_eq_true d.id⟩
  obtain ⟨x, hx⟩ := isSome_iff_exists.mp hsome
  have hid : x.id = d.id := by simpa using find?_some hx
  have heq := Topology.eq_of_id (Topology.mem_devicesOnNode.mp (mem_of_find?_eq_some hx)).1
    (Topology.mem_devicesOnNode.mp hd).1 hid
  rw [hx, heq]

theorem observed_device (hd : d ∈ top.devicesOnNode e.node) :
    ((observeNode e top r w).view d.id).record = previousRecord e top w d := by
  simp [view, observeNode, observedRecord, find_device hd]

theorem observed_namespace (hd : d ∈ top.devicesOnNode e.node) :
    ((observeNode e top r w).view d.id).baseline =
      match w.disk.namespaces d.id with
      | some recorded => some recorded
      | none => if baselined e top r w d then (w.container d.id).map (·.netns) else none := by
  exact congrArg (fun found => bind found _) (find_device hd)

theorem observed_link {l : Link} (hl : l ∈ top.links) (hon : l.onNode e.node = true) :
    (observeNode e top r w).tracker.links l.id = previousLink e top r w l := by
  have hfind : top.links.find? (fun k => k.id == l.id && k.onNode e.node) = some l := by
    have hsome : (top.links.find? (fun k => k.id == l.id && k.onNode e.node)).isSome :=
      find?_isSome.mpr ⟨l, hl, by simp [hon]⟩
    obtain ⟨x, hx⟩ := isSome_iff_exists.mp hsome
    have hprop := find?_some hx
    simp only [Bool.and_eq_true, beq_iff_eq] at hprop
    rw [hx, Topology.eq_of_linkId (mem_of_find?_eq_some hx) hl hprop.1]
  simp [observeNode, observedRecord, hfind]

/-! ### Links, the mode and the disk -/

theorem record_apply (eff : Effect) (w : World) :
    (applyEffect e top env eff w).tracker.links =
        (match eff with
          | .markLink l => Function.update w.tracker.links l.id (some (e.wireHash l))
          | _ => w.tracker.links) ∧
      (applyEffect e top env eff w).tracker.mode =
        (match eff with
          | .markMode => e.modeKey
          | _ => w.tracker.mode) ∧
      (applyEffect e top env eff w).overlay =
        (match eff with
          | .wire l => (applyWire e l w).overlay
          | _ => w.overlay) ∧
      (w.disk = w.tracker →
        (applyEffect e top env eff w).disk = (applyEffect e top env eff w).tracker) := by
  -- a noted debt is neither in the record nor in the overlay
  have howes : ∀ (d : Device) (w : World), (restoreIfNeeded e top env d w).tracker = w.tracker ∧
      (restoreIfNeeded e top env d w).disk = w.disk ∧
      (restoreIfNeeded e top env d w).overlay = w.overlay := by
    intro d w
    unfold restoreIfNeeded
    split_ifs <;> exact ⟨rfl, rfl, rfl⟩
  cases eff with
  | pull | verify | configure | markCreated | markLink | markConfigured | markReady | markMode =>
    exact ⟨rfl, rfl, rfl, fun _ => by first | assumption | rfl⟩
  | replace d | create d | replay d =>
    simp only [applyEffect, applyReplace, applyCreate, applyReplay]
    split_ifs <;> exact ⟨rfl, rfl, rfl, id⟩
  | start d =>
    simp only [applyEffect]
    fun_cases applyStart e top env d w with
    | case2 =>
      rw [(howes _ _).1, (howes _ _).2.1, (howes _ _).2.2]
      exact ⟨rfl, rfl, rfl, id⟩
    | _ => exact ⟨rfl, rfl, rfl, id⟩
  | control d =>
    simp only [applyEffect]
    fun_cases applyControl e top d w <;> exact ⟨rfl, rfl, rfl, id⟩
  | wire l => exact ⟨rfl, rfl, rfl, id⟩
  | owe d =>
    simp only [applyEffect]
    split_ifs
    · rw [(howes _ _).1, (howes _ _).2.1, (howes _ _).2.2]
      exact ⟨rfl, rfl, rfl, id⟩
    · exact ⟨rfl, rfl, rfl, id⟩
  | recordNamespace d =>
    simp only [applyEffect]
    fun_cases applyRecordNamespace e d w with
    | case1 => exact ⟨rfl, rfl, rfl, fun _ => rfl⟩
    | _ => exact ⟨rfl, rfl, rfl, id⟩

variable {w₀ : World}

/-- The record on disk is never behind memory. -/
theorem disk_run (h : List (Step × Effect)) (hw : w₀.disk = w₀.tracker) :
    (runPlan e top env w₀ h).disk = (runPlan e top env w₀ h).tracker := by
  induction h using reverseRecOn with
  | nil => exact hw
  | append_singleton h x ih =>
    rw [runPlan, run_concat]
    exact (record_apply x.2 _).2.2.2 ih

/-- A link is recorded by its own mark. -/
theorem link_run {l : Link} (hist : History (dirtyPlan e top r w) h) (hl : l ∈ top.links)
    (w₀ : World) :
    (runPlan e top env w₀ h).tracker.links l.id =
      if Effect.markLink l ∈ performed h (.wire l) then some (e.wireHash l)
      else w₀.tracker.links l.id := by
  induction hist with
  | nil => rfl
  | @step h j eff rest before job next _ ih =>
    have hnext : j.effects = performed h j ++ eff :: rest := next
    have hmem : eff ∈ j.effects := by simp [hnext]
    rw [runPlan, run_concat]
    change (applyEffect e top env eff (runPlan e top env w₀ h)).tracker.links l.id = _
    rw [(record_apply eff _).1]
    -- the link is recorded by one effect of its own step
    by_cases hown : eff = .markLink l
    · subst hown
      have hj : j = .wire l := by
        cases j <;> simp [Step.effects] at hmem ⊢
        exact hmem.symm
      subst hj
      simp
    · have hother : Effect.markLink l ∈ performed (h ++ [(j, eff)]) (.wire l) ↔
          Effect.markLink l ∈ performed h (.wire l) := by
        simp [mem_performed, Ne.symm hown]
      simp only [hother]
      rw [← ih]
      cases eff with
      | markLink k =>
        have hk : k ∈ top.links := by
          cases j <;> simp [Step.effects] at hmem
          subst hmem
          exact (wire_mem_planSteps.mp job).1
        -- another link has another identifier
        have hne : l.id ≠ k.id := by
          intro hid
          exact hown (by rw [Topology.eq_of_linkId hl hk hid])
        simp [hne]
      | _ => rfl

/-- The mode is recorded by its own mark. -/
theorem mode_run (hist : History (dirtyPlan e top r w) h) :
    (runPlan e top env w₀ h).tracker.mode =
      if Effect.markMode ∈ performed h .recordMode then e.modeKey else w₀.tracker.mode := by
  induction hist with
  | nil => rfl
  | @step h j eff rest _ _ next _ ih =>
    have hnext : j.effects = performed h j ++ eff :: rest := next
    have hmem : eff ∈ j.effects := by simp [hnext]
    rw [runPlan, run_concat]
    refine (record_apply eff _).2.1.trans ?_
    cases eff with
    | markMode =>
      have hj : j = .recordMode := by
        cases j <;> simp [Step.effects] at hmem ⊢
      simp [hj]
    | _ => exact ih.trans (by simp [mem_performed])

end Views

end Deploy

end Twinet
