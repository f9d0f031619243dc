import Twinet.Deploy.Resume

/-!
# Deploying Again Without a Change

After a plan has run to its end, everything it compared is as the plan left it.
A second build should find nothing to do. It does not when something is compared
that no step makes so: a container or a sidecar that is kept under another
runtime contract, a baseline that is not moved because an engine without a
renderer has nothing to configure, sidecars on a backend that cannot prove a
namespace, or an overlay that wiring does not settle.

## Main definitions

* `containerSettles`, `controlSettles`, `strandedBaseline`: What a plan leaves of a device.
* `Stable`: A plan leaves nothing to do.
* `deployed`: The node after a complete run.

## Theorems

* `specDirty_after`, `controlSplit_after`, `namespaceReplaced_after`: A device
  after a complete run.
* `baseline_after`, `record_after`, `mode_after`, `link_after`: What the run left.
* `configure_after`: When the device would be configured again.
-/

namespace Twinet

namespace Deploy

open Schedule List
open Step

section Conditions

variable (e : Engine) (top : Topology) (r : Readings) (w : World) (env : RunEnv)

/-- The container of the device is made again, or carries the contract. -/
def containerSettles (d : Device) : Bool := (madeContainer e top w d).contractLabel == e.contract

/-- The sidecar that is there when the sidecar of the device is seen to. -/
def survivingControl (d : Device) : Option Container :=
  if (w.container d.id).any (mustReplace e d) then none else w.control d.id

/-- The sidecar of the device is made again, or carries the contract. -/
def controlSettles (d : Device) : Bool :=
  match (e.desired d).controlHash with
  | none => true
  | some hash => (survivingControl e w d).all (fun c =>
    !keepsControl hash (some (startedContainer e top w env d)) c ||
      c.contractLabel == e.contract)

/-- The device is started into another namespace than the recorded one, and no
    step of the plan records it. -/
def strandedBaseline (d : Device) : Bool :=
  !e.renders && willStart e w d && !lost e top r w d && movedFromBaseline e top w env d

/-- A plan leaves nothing to do. -/
def Stable : Prop :=
  top.devicesOnNode e.node = [] ∨
    ((e.supportsNetnsIdentity = true ∨
        ∀ d ∈ top.devicesOnNode e.node, (e.desired d).controlHash = none) ∧
      (∀ d ∈ top.devicesOnNode e.node, containerSettles e top w d = true ∧
        controlSettles e top w env d = true ∧ strandedBaseline e top r w env d = false) ∧
      (crossLinks e top = [] ∨ Settles e top w.overlay))

/-- Every identity and every probe of the node can be read, and the probes
    pass. -/
structure ReadsAll : Prop where
  readable : ∀ d ∈ top.devicesOnNode e.node, r.readable d.id = true
  controlReadable : ∀ d ∈ top.devicesOnNode e.node, r.controlReadable d.id = true
  semanticOk : ∀ d ∈ top.devicesOnNode e.node, r.semanticOk d = true
  known : ∀ d ∈ top.devicesOnNode e.node, ∀ c ∈ w.container d.id,
    c.state.joinable = true → c.netns.known = true

end Conditions

/-! ### A device after a complete run -/

section After

variable {e : Engine} {top : Topology} {r r' : Readings} {w : World} {env : RunEnv} {d : Device}
  {h : List (Step × Effect)}

theorem created_after (top : Topology) (env : RunEnv) :
    ((if diffCreate e top r w d then (create d).effects else []).foldl
        (·.apply e top env d ·) ((observeNode e top r w).view d.id)).container =
        some (startedContainer e top w env d) ∧
      ((if diffCreate e top r w d then (create d).effects else []).foldl
        (·.apply e top env d ·) ((observeNode e top r w).view d.id)).control =
        if diffCreate e top r w d then
          (madeView e top env d ((observeNode e top r w).view d.id)).control
        else w.control d.id := by
  cases hcr : diffCreate e top r w d with
  | true =>
    refine ⟨?_, rfl⟩
    change (madeView e top env d _).container = _
    rw [madeView_eq]
    exact (ensureControl_fields _).1.trans (started_container top env rfl)
  | false =>
    simp only [diffCreate, observeDevice, Bool.or_eq_false_iff] at hcr
    exact ⟨started_of_not_willStart top env (not_willStart_of_clean hcr.1), rfl⟩

variable {v : DeviceView}

theorem control_of_made {hash : String} {k : Option Container}
    (hash_eq : (e.desired d).controlHash = some hash)
    (hk : k = (madeView e top env d v).control) (hv : v.container = w.container d.id)
    (hctl : v.control = w.control d.id) :
    (∃ c, survivingControl e w d = some c ∧
        keepsControl hash (some (startedContainer e top w env d)) c = true ∧ k = some c) ∨
      (∀ c, survivingControl e w d = some c →
        keepsControl hash (some (startedContainer e top w env d)) c = false) ∧
        k = some (newControl e top hash (startedContainer e top w env d).netns) := by
  -- neither the creation nor the start touches the control container
  have hbefore : (((v.replace e env d).create e top d).start e top env d).control =
      survivingControl e w d := by
    have hstart : ∀ v : DeviceView, (v.start e top env d).control = v.control := by
      intro v
      fun_cases DeviceView.start with
      | case2 => fun_cases DeviceView.owes <;> rfl
      | _ => rfl
    have hcreate : ∀ v : DeviceView, (v.create e top d).control = v.control := by
      intro v
      fun_cases DeviceView.create <;> rfl
    rw [hstart, hcreate, DeviceView.replace, survivingControl, hv]
    by_cases hgone : (w.container d.id).any (mustReplace e d) = true
    · rw [if_pos hgone, if_pos hgone]
      simp [hash_eq]
    · rw [if_neg hgone, if_neg hgone]
      exact hctl
  rw [hk, madeView_eq]
  simp only [DeviceView.ensureControl, hash_eq, started_container top env hv, hbefore]
  cases hs : survivingControl e w d with
  | none => exact .inr ⟨by simp, by simp⟩
  | some c =>
    by_cases hkeep : keepsControl hash (some (startedContainer e top w env d)) c = true
    · exact .inl ⟨c, rfl, hkeep, by simp [hkeep, hbefore, hs]⟩
    · exact .inr ⟨by simpa using hkeep, by simp [hkeep]⟩

/-- The node after a complete run. -/
def deployed (e : Engine) (top : Topology) (r : Readings) (w : World) (env : RunEnv)
    (h : List (Step × Effect)) : World :=
  runPlan e top env (observeNode e top r w) h

theorem specLabel_of_made (hrecovery : e.recoveryCompatibility = false) :
    (madeContainer e top w d).specLabel = (e.desired d).specHash := by
  unfold madeContainer
  split
  · rfl
  · split_ifs with hgone
    · rfl
    · simp only [mustReplace, forcedRecreate, hrecovery, Bool.or_eq_true, Bool.and_eq_true,
        beq_iff_eq, bne_iff_ne, Bool.false_and, Bool.false_eq_true, or_false, not_or, not_and,
        ne_eq, not_not] at hgone
      exact hgone.2 hgone.1

theorem sameAs_self {n : NetnsIdentity} (h : n.known = true) : n.sameAs n = true := by
  simp [NetnsIdentity.sameAs, h]

theorem unproven_foldl (effs : List Effect) (v : DeviceView) :
    (effs.foldl (·.apply e top env d ·) v).unprovenNamespace =
      v.unprovenNamespace := by
  exact foldlRecOn (motive := (·.unprovenNamespace = v.unprovenNamespace)) effs _ rfl
    fun v' hv eff _ => (apply_recorded d eff v').2.2.trans hv

theorem configured_baseline (top : Topology) (env : RunEnv) {c : Container}
    (hv : v.container = some c) :
    ((configure d).effects.foldl (·.apply e top env d ·) v).baseline =
        some c.netns ∨
      (e.supportsNetnsIdentity = false ∨ v.unprovenNamespace = true) ∧
        ((configure d).effects.foldl (·.apply e top env d ·) v).baseline =
          v.baseline := by
  -- The state of the device when its namespace is recorded.
  let before := [Effect.configure d, .owe d, .replay d].foldl
    (·.apply e top env d ·) v
  have hcont : before.container = some c := by
    rw [← hv]
    refine (containers_of_configured top env (d := d) (fun eff heff => .inl ?_) v).1
    simp only [mem_cons, not_mem_nil, or_false] at heff
    rcases heff with rfl | rfl | rfl <;> simp [Step.effects]
  have hunproven : before.unprovenNamespace = v.unprovenNamespace := unproven_foldl _ v
  have hbase : before.baseline = v.baseline := by
    simp [before, apply_recorded]
  have hlast : ((configure d).effects.foldl (·.apply e top env d ·) v).baseline =
      (before.recordNamespace e).baseline := rfl
  rw [hlast]
  simp only [DeviceView.recordNamespace, hcont]
  split_ifs with hrec
  · exact .inl rfl
  · refine .inr ⟨?_, hbase⟩
    simp only [hunproven, Bool.and_eq_true, Bool.not_eq_true', Bool.and_eq_false_iff,
      Bool.not_eq_false'] at hrec
    cases hs : e.supportsNetnsIdentity with
    | false => exact .inl rfl
    | true =>
      cases hu : v.unprovenNamespace with
      | true => exact .inr rfl
      | false => exact absurd ⟨hs, .inl hu⟩ hrec

theorem started_of_unmade (env : RunEnv) (hcr : diffCreate e top r w d = false) :
    w.container d.id = some (startedContainer e top w env d) := by
  have hcont := (created_after top env (e := e) (r := r) (w := w) (d := d)).1
  rw [hcr] at hcont
  exact hcont

theorem configure_of_stranded (hs : strandedBaseline e top r w env d = true) :
    diffConfigure e top r w d = false := by
  simp only [strandedBaseline, Bool.and_eq_true, Bool.not_eq_true'] at hs
  obtain ⟨⟨⟨hr, hstart⟩, hlost⟩, -⟩ := hs
  simp [diffConfigure, observeDevice, observedConfigure, semanticDirty, hr, hlost,
    specDirty_of_willStart hstart]

theorem stranded_of_moved (hconf : diffConfigure e top r w d = false)
    (hmoved : movedFromBaseline e top w env d = true) :
    strandedBaseline e top r w env d = true := by
  have hlost : lost e top r w d = false := by
    simp only [diffConfigure, Bool.or_eq_false_iff] at hconf
    exact hconf.1.2
  have hstart : willStart e w d = true := by
    by_contra hne
    have hc := started_of_not_willStart top env (by simpa using hne)
    have hrep : namespaceReplaced e r w d = false := by
      simp only [lost, replaced, Bool.or_eq_false_iff] at hlost
      exact hlost.1.2
    rw [namespaceReplaced_of_moved r hmoved rfl hc] at hrep
    cases hrep
  have hrender : e.renders = false := by
    by_contra hne
    have hplan : diffConfigure e top r w d = true :=
      configure_of_create (by simpa using hne) (create_of_willStart hstart)
    rw [hconf] at hplan
    cases hplan
  simp [strandedBaseline, hrender, hstart, hlost, hmoved]

theorem ready_of_configure (hr : e.renders = true) (hh : e.hasReady d = true)
    (hconf : diffConfigure e top r w d = true) : diffReady e top r w d = true := by
  simp only [diffConfigure, Bool.or_eq_true] at hconf
  simp only [diffReady, hr, hh, Bool.and_true, Bool.or_eq_true]
  rcases hconf with (hobs | hlost) | hsem
  · left
    have hobs' : observedConfigure e top w d = true := hobs
    simp [observeDevice, hr, hh, hobs']
  · exact .inr (.inl hlost)
  · exact .inr (.inr hsem)

variable (hc : Complete (dirtyPlan e top r w) h)

include hc

theorem deviceEffects_complete (hd : d ∈ top.devicesOnNode e.node) :
    deviceEffects h d =
      (if diffCreate e top r w d then (create d).effects else []) ++
        (if diffConfigure e top r w d then (configure d).effects else []) ++
        (if e.renders && diffReady e top r w d && e.hasReady d then (ready d).effects
          else []) := by
  have hstep : ∀ (j : Step) (planned : Bool), (j ∈ planSteps e top r w ↔ planned = true) →
      performed h j = if planned then j.effects else [] := by
    intro j planned hiff
    cases planned with
    | true => exact hc.2 j (hiff.mpr rfl)
    | false => exact hc.1.performed_nil (fun hj => nomatch hiff.mp hj)
  rw [deviceEffects, hstep (.create d) (diffCreate e top r w d)
      (create_mem_planSteps.trans (by simp [hd])),
    hstep (.configure d) (diffConfigure e top r w d)
      (configure_mem_planSteps.trans (by simp [hd])),
    hstep (.ready d) (e.renders && diffReady e top r w d && e.hasReady d)
      (ready_mem_planSteps.trans (by simp [hd, and_assoc]))]

variable {w' : World} (hw' : w' = deployed e top r w env h)

include hw'

/-- A complete run has recorded the mode. -/
theorem mode_after (hdisk : w'.disk = w'.tracker) : modeDirty e w' = false := by
  rw [modeDirty, hdisk, hw', deployed, mode_run hc.1]
  cases hm : modeDirty e w with
  | true =>
    rw [hc.2 _ (recordMode_mem_planSteps.mpr hm)]
    simp [dirtyPlan, Step.effects]
  | false =>
    have hnil : performed h .recordMode = [] := hc.1.performed_nil fun hj =>
      Bool.false_ne_true (hm.symm.trans (recordMode_mem_planSteps.mp hj))
    rw [hnil]
    exact hm

/-- It has recorded every link. -/
theorem link_after {l : Link} (hl : l ∈ top.links) (hon : l.onNode e.node = true) :
    w'.tracker.links l.id = some (e.wireHash l) := by
  rw [hw', deployed, link_run hc.1 hl]
  by_cases hw : diffWire e top r w l = true
  · have hdone := hc.2 _ (wire_mem_planSteps.mpr ⟨hl, hw⟩)
    rw [if_pos (by rw [hdone]; simp [dirtyPlan, Step.effects])]
  · have hnil : performed h (.wire l) = [] :=
      hc.1.performed_nil fun hj => hw (wire_mem_planSteps.mp hj).2
    rw [if_neg (by simp [hnil]), observed_link hl hon]
    simp only [diffWire, hon, Bool.true_and, Bool.or_eq_true, not_or, bne_iff_ne, ne_eq,
      not_not] at hw
    exact hw.1.2

variable (hd : d ∈ top.devicesOnNode e.node)

include hd

theorem view_complete :
    w'.container d.id = some (startedContainer e top w env d) ∧
      w'.control d.id =
        if diffCreate e top r w d then
          (madeView e top env d ((observeNode e top r w).view d.id)).control
        else w.control d.id := by
  have hlater : ∀ eff ∈ (if diffConfigure e top r w d then (configure d).effects else []) ++
      (if e.renders && diffReady e top r w d && e.hasReady d then (ready d).effects else []),
      eff ∈ (configure d).effects ∨ eff ∈ (ready d).effects := by
    intro eff heff
    rcases mem_append.mp heff with heff | heff
    · split_ifs at heff
      · exact .inl heff
      · simp at heff
    · split_ifs at heff
      · exact .inr heff
      · simp at heff
  change (w'.view d.id).container = _ ∧ (w'.view d.id).control = _
  rw [hw', deployed, view_run hc.1 hd, deviceEffects_complete hc hd, append_assoc, foldl_append,
    (containers_of_configured top env hlater _).1, (containers_of_configured top env hlater _).2]
  exact created_after top env

theorem controlDirty_after : controlDirty e w' d = !controlSettles e top w env d := by
  have hctl := (view_complete hc hw' hd).2
  cases hash_eq : (e.desired d).controlHash with
  | none => simp [controlDirty, controlSettles, hash_eq]
  | some hash =>
    simp only [controlDirty, hash_eq]
    cases hcr : diffCreate e top r w d with
    | true =>
      rw [hcr, if_pos rfl] at hctl
      rcases control_of_made hash_eq hctl rfl rfl with ⟨c, hs, hkeep, hmade⟩ | ⟨hnot, hmade⟩
      · have hparts := hkeep
        simp only [keepsControl, Bool.and_eq_true, beq_iff_eq] at hparts
        simp [controlSettles, hash_eq, hmade, hs, hkeep, hparts.1.1, hparts.1.2, bne]
      · have hsettles : controlSettles e top w env d = true := by
          cases hs : survivingControl e w d with
          | none => simp [controlSettles, hash_eq, hs]
          | some c => simp [controlSettles, hash_eq, hs, hnot c hs]
        simp [hmade, hsettles, newControl, ContainerState.joinable]
    | false =>
      rw [hcr] at hctl
      simp only [Bool.false_eq_true, if_false] at hctl
      -- Nothing was made: the sidecar was right before.
      have hclean : controlDirty e w d = false := by
        simp only [diffCreate, observeDevice, specDirty, Bool.or_eq_false_iff] at hcr
        exact hcr.1.2
      simp only [controlDirty, hash_eq] at hclean
      cases hk : w.control d.id with
      | none => simp [hk] at hclean
      | some c =>
        simp only [hk, Bool.or_eq_false_iff, bne_eq_false_iff_eq] at hclean
        have hsettles : controlSettles e top w env d = true := by
          simp only [controlSettles, hash_eq, survivingControl]
          split_ifs
          · rfl
          · simp [hk, hclean.2]
        simp [hctl, hk, hsettles, hclean.1.1, hclean.1.2, hclean.2]

/-- A device after a complete run is dirty only where something is kept under
    another contract. -/
theorem specDirty_after (hrecovery : e.recoveryCompatibility = false) :
    specDirty e w' d =
      !(containerSettles e top w d && controlSettles e top w env d) := by
  have hcont := (view_complete hc hw' hd).1
  have hjoin : (startedContainer e top w env d).state.joinable = true := startedContainer_joinable
  obtain ⟨-, hspec, hcontract⟩ := startedContainer_labels top env (e := e) (w := w) (d := d)
  have hstate : ((startedContainer e top w env d).state == .absent) = false := by
    cases hst : (startedContainer e top w env d).state <;>
        simp [hst, ContainerState.joinable] at hjoin ⊢
  have hprimary : primaryRecreate e w' d = !containerSettles e top w d := by
    simp [primaryRecreate, hcont, hstate, hspec, hcontract, specLabel_of_made hrecovery,
      forcedRecreate, hrecovery, containerSettles, bne]
  rw [specDirty, hprimary, controlDirty_after hc hw' hd]
  simp [hcont, joinable, hjoin, Bool.not_and]

/-- The baseline moves if the device was configured. -/
theorem baseline_after :
    (diffConfigure e top r w d = true ∧ w'.tracker.namespaces d.id =
        some (startedContainer e top w env d).netns) ∨
      (diffConfigure e top r w d = false ∨ e.supportsNetnsIdentity = false ∨
          markedUnproven e top r w d = true) ∧
        w'.tracker.namespaces d.id =
          ((observeNode e top r w).view d.id).baseline := by
  have hview : w'.tracker.namespaces d.id = (w'.view d.id).baseline := rfl
  rw [hview, hw', deployed, view_run hc.1 hd, deviceEffects_complete hc hd]
  simp only [foldl_append]
  -- The create step leaves the baseline, and so does the check at the end.
  have hpart : (if diffCreate e top r w d then (create d).effects else []) <+:
      (create d).effects := by
    split_ifs
    · exact prefix_rfl
    · exact nil_prefix
  have hmade := recorded_partway (e := e) top env hpart ((observeNode e top r w).view d.id)
  have hready : ∀ v : DeviceView, ((if e.renders && diffReady e top r w d && e.hasReady d then
      (ready d).effects else []).foldl (·.apply e top env d ·) v).baseline =
      v.baseline := by
    intro v
    split_ifs <;> rfl
  rw [hready]
  cases hconf : diffConfigure e top r w d with
  | false =>
    refine .inr ⟨.inl rfl, ?_⟩
    simpa using hmade.1
  | true =>
    simp only [if_true]
    rcases configured_baseline (e := e) top env (d := d)
      (created_after top env (r := r) (w := w)).1 with hrec | ⟨hwhy, hrec⟩
    · exact .inl ⟨trivial, hrec⟩
    · refine .inr ⟨.inr ?_, hrec.trans hmade.1⟩
      refine hwhy.imp_right fun hu => ?_
      rw [unproven_foldl] at hu
      exact (flagOf_eq hd).symm.trans hu

/-- The record is that of the last step of the device. -/
theorem record_after (hr : e.renders = true) :
    w'.tracker.devices d.id =
      if e.renders && diffReady e top r w d && e.hasReady d then some (fullRecord e d)
      else if diffConfigure e top r w d then some (configuredRecord e d)
      else previousRecord e top w d := by
  have hview : w'.tracker.devices d.id = (w'.view d.id).record := rfl
  rw [hview, hw', deployed, view_run hc.1 hd, deviceEffects_complete hc hd]
  simp only [foldl_append]
  by_cases hready : (e.renders && diffReady e top r w d && e.hasReady d) = true
  · rw [if_pos hready, if_pos hready]
    rfl
  · rw [if_neg hready, if_neg hready, foldl_nil]
    by_cases hconf : diffConfigure e top r w d = true
    · rw [if_pos hconf, if_pos hconf]
      rfl
    · have hcr : ¬ diffCreate e top r w d = true := fun hcr => hconf (configure_of_create hr hcr)
      rw [if_neg hconf, if_neg hconf, if_neg hcr]
      exact observed_device hd

variable (hreads : ReadsAll e top r' w')

include hreads

/-- Every sidecar is with its router. -/
theorem controlSplit_after : controlSplit e r' w' d = false := by
  obtain ⟨hcont, hctl⟩ := view_complete hc hw' hd
  have hknown := hreads.known d hd _ hcont startedContainer_joinable
  unfold controlSplit
  cases hash_eq : (e.desired d).controlHash with
  | none => simp
  | some hash =>
    simp only [hcont, hreads.readable d hd, hreads.controlReadable d hd]
    cases hcr : diffCreate e top r w d with
    | true =>
      rw [hcr, if_pos rfl] at hctl
      rcases control_of_made hash_eq hctl rfl rfl with ⟨c, hs, hkeep, hmade⟩ | ⟨-, hmade⟩
      · simp only [keepsControl, Bool.and_eq_true, Option.any_some] at hkeep
        simp [hmade, hkeep.2]
      · simp [hmade, newControl, sameAs_self hknown]
    | false =>
      rw [hcr] at hctl
      simp only [Bool.false_eq_true, if_false] at hctl
      simp only [diffCreate, observeDevice, Bool.or_eq_false_iff, replaced] at hcr
      obtain ⟨hclean, hsplit, -⟩ := hcr
      -- The container is the one the first build compared.
      have hc' := started_of_not_willStart top env (not_willStart_of_clean hclean)
      rw [hctl]
      cases hk : w.control d.id with
      | none => simp
      | some k =>
        simp only [controlSplit, hclean, hash_eq, hc', hk, Option.isSome_some, Bool.not_false,
          Bool.true_and, Bool.or_eq_false_iff, Bool.not_eq_false'] at hsplit
        simp [hsplit.2]

/-- A device after a complete run is in its recorded namespace, unless its
    baseline is stranded. -/
theorem namespaceReplaced_after (hdisk : w'.disk = w'.tracker) :
    namespaceReplaced e r' w' d = strandedBaseline e top r w env d := by
  have hcont := (view_complete hc hw' hd).1
  have hknown := hreads.known d hd _ hcont startedContainer_joinable
  have hnotmoved : movedFromBaseline e top w env d = false →
      strandedBaseline e top r w env d = false := by
    intro hm
    simp [strandedBaseline, hm]
  have hany : namespaceReplaced e r' w' d =
      (e.supportsNetnsIdentity &&
        (w'.tracker.namespaces d.id).any (fun n =>
          n.known && !(startedContainer e top w env d).netns.sameAs n)) := by
    unfold namespaceReplaced
    rw [hdisk, hcont]
    cases w'.tracker.namespaces d.id with
    | none => rfl
    | some n => simp [startedContainer_joinable, hreads.readable d hd]
  rw [hany]
  rcases baseline_after hc hw' hd with ⟨hconf, hbase⟩ | ⟨hwhy, hbase⟩
  · have hst : strandedBaseline e top r w env d = false := by
      by_contra hne
      rw [configure_of_stranded (by simpa using hne)] at hconf
      nomatch hconf
    rw [hbase, hst]
    simp [sameAs_self hknown]
  · rw [hbase, observed_namespace hd]
    cases hn : w.disk.namespaces d.id with
    | some n =>
      have hmoved : movedFromBaseline e top w env d = (e.supportsNetnsIdentity &&
          (n.known && !(startedContainer e top w env d).netns.sameAs n)) := by
        simp [movedFromBaseline, hn]
      simp only [Option.any_some]
      rw [← hmoved]
      cases hm : movedFromBaseline e top w env d with
      | false => exact (hnotmoved hm).symm
      | true =>
        symm
        rcases hwhy with hconf | hsup | hunproven
        · exact stranded_of_moved hconf hm
        · simp [movedFromBaseline, hsup] at hm
        · -- A namespace in doubt has no known baseline.
          simp only [markedUnproven, unsettledNamespace, hn, Option.any_some,
            Bool.and_eq_true, Bool.not_eq_true'] at hunproven
          simp [movedFromBaseline, hn, hunproven.1.1.2] at hm
    | none =>
      have hmoved : movedFromBaseline e top w env d = false := by
        simp [movedFromBaseline, hn]
      rw [hnotmoved hmoved]
      by_cases hb : baselined e top r w d = true
      · simp only [baselined, clean, Bool.and_eq_true, Bool.not_eq_true'] at hb
        simp [hb, started_of_unmade env hb.1.2.1.1, sameAs_self hknown, baselined, clean]
      · simp [hb]

/-- A device that is not dirty and in its namespace is neither configured nor
    checked again. -/
theorem configure_after (hdisk : w'.disk = w'.tracker) (hclean : specDirty e w' d = false)
    (hlost : lost e top r' w' d = false) :
    diffConfigure e top r' w' d = false ∧
      (e.renders && diffReady e top r' w' d && e.hasReady d) = false := by
  have hsem : semanticDirty e top r' w' d = false := by
    simp [semanticDirty, hreads.semanticOk d hd]
  cases hr : e.renders with
  | false =>
    refine ⟨?_, rfl⟩
    simp [diffConfigure, observeDevice, observedConfigure, hr, hlost, hsem]
  | true =>
    have hmode := mode_after hc hw' hdisk
    have hrec := record_after hc hw' hd hr
    rw [← hdisk] at hrec
    -- The record is there, and it is that of the wanted configuration.
    have hprev : ∃ previous, previousRecord e top w' d = some previous ∧
        configDiffers e d previous = false ∧
        (e.hasReady d = true → previous.readyHash = (e.desired d).readyHash) := by
      by_cases hready : (e.renders && diffReady e top r w d && e.hasReady d) = true
      · rw [if_pos hready] at hrec
        exact ⟨fullRecord e d, by simp [previousRecord, hrec],
          by simp [configDiffers, fullRecord], fun _ => rfl⟩
      · rw [if_neg hready] at hrec
        by_cases hconf : diffConfigure e top r w d = true
        · rw [if_pos hconf] at hrec
          refine ⟨configuredRecord e d, by simp [previousRecord, hrec],
            by simp [configDiffers, configuredRecord, fullRecord], fun hh => ?_⟩
          exact absurd (by simp [hr, hh, ready_of_configure hr hh hconf]) hready
        · rw [if_neg hconf] at hrec
          have hobs : observedConfigure e top w d = false := by
            simp only [diffConfigure, Bool.or_eq_true, not_or, Bool.not_eq_true] at hconf
            exact hconf.1.1
          simp only [observedConfigure, hr, Bool.true_and, Bool.or_eq_false_iff] at hobs
          cases hp : previousRecord e top w d with
          | none => simp [hp] at hobs
          | some previous =>
            rw [hp] at hrec hobs
            refine ⟨previous, by simp [previousRecord, hrec], hobs.2, fun hh => ?_⟩
            by_contra hne
            refine hready ?_
            simp [hr, hh, diffReady, observeDevice, hp, hne]
    obtain ⟨previous, hp, hdiff, hhash⟩ := hprev
    have hobs : observedConfigure e top w' d = false := by
      simp [observedConfigure, hmode, hclean, hp, hdiff]
    refine ⟨by simp [diffConfigure, observeDevice, hobs, hlost, hsem], ?_⟩
    cases hh : e.hasReady d with
    | false => simp
    | true =>
      simp [diffReady, observeDevice, hobs, hlost, hsem, hmode, hclean, hp, hhash hh]

end After

end Deploy

end Twinet
