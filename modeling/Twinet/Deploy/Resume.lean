import Twinet.Deploy.Replayed

/-!
# Resuming an Interrupted Deployment

When the agent dies in the middle of a plan, the next build has to find what
was not finished. It has the containers, with their labels, and the record on
disk. A container carries its labels from the moment it is created, and its
record is written only when the create step ends; in between, a device nothing
is recorded about looks exactly like one that was configured from this very
topology.

A pending change of the mode makes everything dirty until the last step. Without
one, a device whose container is made again resumes when its record differs, or
when the namespace it is in is known not to be the recorded one. The other steps
can be lost: whether they are depends on what else was finished.

## Main definitions

* `deviceResumes`, `linkResumes`: A device or a link that is found again at any point.
* `Resumable`: Every step of the plan is.
* `interrupted`: The node as the next build finds it.
* `LosesStep`: A crash after which an unfinished step is forgotten.

## Theorems

* `made_partway`: The container of a device while it is made.
* `configure_resumes`, `wire_resumes`: What the next build finds.
* `interrupted_deployment_resumes`: The next plan has every step that was not
  finished.
* `left_out_steps_lost`: A crash for each kind of step the condition leaves out.
-/

namespace Twinet

namespace Deploy

open Schedule List
open Bool (and_eq_true false_eq_true not_eq_true' or_eq_true)
open Step
open DeviceView

section Conditions

variable (e : Engine) (top : Topology) (r : Readings) (w : World) (env : RunEnv)

/-- The device ends up in another namespace than the recorded one. -/
def movedFromBaseline (d : Device) : Bool :=
  e.supportsNetnsIdentity &&
    (w.disk.namespaces d.id).any (fun n =>
      n.known && !(startedContainer e top w env d).netns.sameAs n)

/-- A device whose container is made again is found until it is configured: by
    its namespace, by its record, or because nothing makes it look configured.
    A device that is only configured is found by its record. -/
def deviceResumes (d : Device) : Bool :=
  if diffCreate e top r w d then
    movedFromBaseline e top w env d ||
      match w.disk.devices d.id with
      | some previous => configDiffers e d previous
      | none => !(decide (0 < d.asn) && (madeContainer e top w d).hashLabel == top.hash)
  else observedConfigure e top w d

/-- A link at a device that is made again is found until it is wired: by the
    namespace of that device, by its record, or because nothing makes it look
    wired. A link that is only wired is found by its record. -/
def linkResumes (l : Link) : Bool :=
  if endpointCreate e top r w l then
    [l.a, l.b].any (fun d => d.node == e.node && diffCreate e top r w d &&
        movedFromBaseline e top w env d) ||
      match w.disk.links l.id with
      | some hash => hash != e.wireHash l
      | none => [l.a, l.b].any (fun d => d.node == e.node &&
          (madeContainer e top w d).hashLabel != top.hash)
  else previousLink e top r w l != some (e.wireHash l)

/-- The engine renders and writes its record, and either a change of the mode is
    pending or each device and each link of the plan is found again. -/
def Resumable : Prop :=
  e.renders = true ∧ e.observationReadOnly = false ∧
    (modeDirty e w = true ∨
      (∀ d ∈ top.devicesOnNode e.node, diffConfigure e top r w d = true →
        deviceResumes e top r w env d = true) ∧
      ∀ l ∈ top.links, diffWire e top r w l = true → linkResumes e top r w env l = true)

instance : Decidable (Resumable e top r w env) :=
  inferInstanceAs (Decidable (_ ∧ _ ∧ (_ ∨ _)))

end Conditions

/-! ### A device in the middle of a plan -/

variable {w' : World}

section Device

variable {e : Engine} {top : Topology} {r : Readings} {w : World} {env : RunEnv} {d : Device}
  {effs : List Effect}

/-- While a container is made, its task is still to be started, or it is what it
    ends up as. -/
theorem made_partway (hpre : effs <+: (create d).effects) {v : DeviceView}
    (hv : v.container = w.container d.id)
    (hw' : w'.container d.id = (effs.foldl (·.apply e top env d ·) v).container) :
    willStart e w' d = true ∨ w'.container d.id = some (startedContainer e top w env d) := by
  have hsame : ∀ w' : World, w'.container d.id = w.container d.id →
      willStart e w' d = true ∨ w'.container d.id = some (startedContainer e top w env d) := by
    intro w' heq
    cases hs : willStart e w d with
    | true =>
      left
      rw [willStart, heq]
      exact hs
    | false =>
      right
      rw [heq]
      exact started_of_not_willStart top env hs
  have hstarted := started_container (e := e) top env hv
  simp only [Step.effects, prefix_cons_iff, prefix_nil] at hpre
  rcases hpre with rfl | ⟨_, rfl, rfl | ⟨_, rfl, rfl | ⟨_, rfl, rfl | ⟨_, rfl, rfl | ⟨_, rfl,
    rfl⟩⟩⟩⟩⟩
  · exact hsame w' (hw'.trans hv)
  · -- The old container is gone, or still the one that was there.
    simp only [foldl_cons, foldl_nil, DeviceView.apply, DeviceView.replace] at hw'
    by_cases hgone : v.container.any (mustReplace e d) = true
    · rw [if_pos hgone] at hw'
      exact .inl (by simp [willStart, hw'])
    · rw [if_neg hgone] at hw'
      exact hsame w' (hw'.trans hv)
  · simp only [foldl_cons, foldl_nil, DeviceView.apply, created_container top env hv]
      at hw'
    by_cases hj : (madeContainer e top w d).state.joinable = true
    · right
      simp [hw', startedContainer, hj]
    · left
      simp [willStart, hw', hj]
  · exact .inr (hw'.trans hstarted)
  · exact .inr (hw'.trans ((ensureControl_fields _).1.trans hstarted))
  · exact .inr (hw'.trans ((ensureControl_fields _).1.trans hstarted))

theorem startedContainer_joinable :
    (startedContainer e top w env d).state.joinable = true := by
  simp only [startedContainer]
  split_ifs with hj
  · exact hj
  · rfl

theorem startedContainer_labels (top : Topology) (env : RunEnv) :
    (startedContainer e top w env d).hashLabel = (madeContainer e top w d).hashLabel ∧
      (startedContainer e top w env d).specLabel = (madeContainer e top w d).specLabel ∧
      (startedContainer e top w env d).contractLabel = (madeContainer e top w d).contractLabel := by
  simp only [startedContainer]
  split_ifs <;> exact ⟨rfl, rfl, rfl⟩

theorem recorded_partway (top : Topology) (env : RunEnv) (hpre : effs <+: (Step.create d).effects)
    (v : DeviceView) :
    (effs.foldl (·.apply e top env d ·) v).baseline = v.baseline ∧
      (effs ≠ (Step.create d).effects →
        (effs.foldl (·.apply e top env d ·) v).record = v.record) := by
  simp only [Step.effects, prefix_cons_iff, prefix_nil] at hpre
  rcases hpre with rfl | ⟨_, rfl, rfl | ⟨_, rfl, rfl | ⟨_, rfl, rfl | ⟨_, rfl, rfl | ⟨_, rfl,
    rfl⟩⟩⟩⟩⟩ <;>
    simp [apply_recorded, Step.effects]

theorem containers_of_configured (top : Topology) (env : RunEnv)
    (hsub : ∀ eff ∈ effs, eff ∈ (configure d).effects ∨ eff ∈ (ready d).effects)
    (v : DeviceView) :
    (effs.foldl (·.apply e top env d ·) v).container = v.container ∧
      (effs.foldl (·.apply e top env d ·) v).control = v.control := by
  refine foldlRecOn (motive := fun v' : DeviceView => v'.container = v.container ∧
    v'.control = v.control) effs _ ⟨rfl, rfl⟩ fun v' hv eff heff => ?_
  have hown := apply_container (e := e) top env d (hsub eff heff) v'
  exact ⟨hown.1.trans hv.1, hown.2.trans hv.2⟩

theorem record_partway (top : Topology) (env : RunEnv)
    (hpre : effs <+: (configure d).effects) (hne : effs ≠ (configure d).effects)
    (v : DeviceView) : (effs.foldl (·.apply e top env d ·) v).record = v.record := by
  simp only [Step.effects, prefix_cons_iff, prefix_nil] at hpre
  rcases hpre with rfl | ⟨_, rfl, rfl | ⟨_, rfl, rfl | ⟨_, rfl, rfl | ⟨_, rfl, rfl | ⟨_, rfl,
    rfl⟩⟩⟩⟩⟩
  · rfl
  · simp [apply_recorded]
  · simp [apply_recorded]
  · simp [apply_recorded]
  · simp [apply_recorded]
  · exact absurd rfl hne

/-- There is a container with this label, and it is not to be replaced. -/
def Labelled (e : Engine) (d : Device) (label : String) (container : Option Container) : Prop :=
  ∃ c, container = some c ∧ c.state ≠ .absent ∧ mustReplace e d c = false ∧ c.hashLabel = label

theorem labelled_foldl (top : Topology) (env : RunEnv) {label : String} (effs : List Effect)
    {v : DeviceView} (hv : Labelled e d label v.container) :
    Labelled e d label (effs.foldl (·.apply e top env d ·) v).container := by
  refine foldlRecOn (motive := fun v : DeviceView => Labelled e d label v.container) effs _ hv
    fun v hv eff _ => ?_
  have hsame : ∀ v' : DeviceView, v'.container = v.container → Labelled e d label v'.container :=
    fun v' heq => heq ▸ hv
  have hconf : ∀ eff ∈ (configure d).effects, (v.apply e top env d eff).container = v.container :=
    fun eff heff => (apply_container top env d (.inl heff) v).1
  obtain ⟨c, hc, habsent, hkeep, hlabel⟩ := hv
  cases eff with
  | replace => exact hsame _ (by simp [DeviceView.apply, DeviceView.replace, hc, hkeep])
  | create => exact hsame _ (by simp [DeviceView.apply, DeviceView.create, hc, habsent])
  | start =>
    by_cases hj : c.state.joinable = true
    · exact hsame _ (by simp [apply, start, hc, hj])
    · refine ⟨{ c with state := .running, netns := env.born d.id }, ?_, by simp, ?_, hlabel⟩
      · simp only [apply, start, hc, hj, owes, false_eq_true, if_false]
        split_ifs <;> rfl
      · simpa [mustReplace, habsent] using hkeep
  | control => exact hsame _ (ensureControl_fields v).1
  | owe => exact hsame _ (hconf (.owe d) (by simp [Step.effects]))
  | replay => exact hsame _ (hconf (.replay d) (by simp [Step.effects]))
  | recordNamespace => exact hsame _ (hconf (.recordNamespace d) (by simp [Step.effects]))
  | _ => exact hsame _ rfl

end Device

/-! ### What the next build finds -/

section Next

variable {e : Engine} {top : Topology} {r r' : Readings} {w : World} {env : RunEnv} {d : Device}
  {h : List (Step × Effect)}

/-- The node as the next build finds it. -/
def interrupted (e : Engine) (top : Topology) (r : Readings) (w : World) (env : RunEnv)
    (h : List (Step × Effect)) : World :=
  crash (runPlan e top env (observeNode e top r w) h)

theorem observedConfigure_of_dirty (hr : e.renders = true) (hs : specDirty e w d = true) :
    observedConfigure e top w d = true := by
  simp [observedConfigure, hr, hs]

theorem observedConfigure_of_record (hr : e.renders = true) {previous : DeviceRecord}
    (hrec : w.disk.devices d.id = some previous) (hdiff : configDiffers e d previous = true) :
    observedConfigure e top w d = true := by
  simp [observedConfigure, previousRecord, hr, hrec, hdiff]

theorem observedConfigure_of_unknown (hr : e.renders = true)
    (hrec : w.disk.devices d.id = none) (hboot : bootstraps e top w d = false) :
    observedConfigure e top w d = true := by
  simp [observedConfigure, previousRecord, hr, hrec, hboot]

theorem createdRecord_differs : configDiffers e d (createdRecord e d) = true := by
  simp [configDiffers, createdRecord, (e.desired d).configHash_ne.symm]

theorem namespaceReplaced_of_moved (r' : Readings)
    (hmoved : movedFromBaseline e top w env d = true)
    (hbase : w'.disk.namespaces d.id = w.disk.namespaces d.id)
    (hc : w'.container d.id = some (startedContainer e top w env d)) :
    namespaceReplaced e r' w' d = true := by
  simp only [movedFromBaseline, and_eq_true] at hmoved
  obtain ⟨hsup, hany⟩ := hmoved
  cases hn : w.disk.namespaces d.id with
  | none => simp [hn] at hany
  | some n =>
    simp only [hn, Option.any_some, and_eq_true, not_eq_true'] at hany
    simp [namespaceReplaced, hsup, hbase, hn, hc, startedContainer_joinable, hany.1, hany.2]

theorem create_of_moved (r' : Readings) {found : Option NetnsIdentity}
    (hmoved : movedFromBaseline e top w env d = true)
    (hbase : w'.disk.namespaces d.id = match w.disk.namespaces d.id with
      | some recorded => some recorded
      | none => found)
    (hcont : willStart e w' d = true ∨ w'.container d.id = some (startedContainer e top w env d)) :
    specDirty e w' d = true ∨ replaced e r' w' d = true := by
  rcases hcont with hstart | hc
  · exact .inl (specDirty_of_willStart hstart)
  · right
    have hsame : w'.disk.namespaces d.id = w.disk.namespaces d.id := by
      rw [hbase]
      cases hn : w.disk.namespaces d.id with
      | some n => rfl
      | none => simp [movedFromBaseline, hn] at hmoved
    simp [replaced, namespaceReplaced_of_moved r' hmoved hsame hc]

theorem label_of_bootstraps (hb : bootstraps e top w d = true) :
    0 < d.asn ∧ (madeContainer e top w d).hashLabel = top.hash := by
  simp only [bootstraps, and_eq_true, not_eq_true', decide_eq_true_eq] at hb
  obtain ⟨⟨hclean, hlabel⟩, hasn⟩ := hb
  refine ⟨hasn, ?_⟩
  obtain ⟨c, hc, -, habsent, hkeep⟩ := container_of_not_willStart (not_willStart_of_clean hclean)
  simp only [hc, Option.any_some, beq_iff_eq] at hlabel
  simp [madeContainer, hc, habsent, hkeep, hlabel]

theorem wire_of_record {l : Link} (hon : l.onNode e.node = true)
    (h : endpointCreate e top r w l = true ∨
      (match w.disk.links l.id with
        | some hash => hash != e.wireHash l
        | none => !linkLabelHashMatches e top w l) = true) :
    diffWire e top r w l = true := by
  cases hend : endpointCreate e top r w l with
  | true => simp [diffWire, hon, hend]
  | false =>
    rw [hend] at h
    have hrec := h.resolve_left (by simp)
    have hprev : (previousLink e top r w l != some (e.wireHash l)) = true := by
      unfold previousLink
      cases hlink : w.disk.links l.id with
      | some hash =>
        simp only [hlink, bne_iff_ne] at hrec
        simpa using hrec
      | none =>
        simp only [hlink, not_eq_true'] at hrec
        simp [hrec]
    simp [diffWire, hon, hprev]

variable {l : Link}

section Interrupted

variable (hw : e.observationReadOnly = false)

include hw

theorem interrupted_disk :
    (interrupted e top r w env h).disk =
      (runPlan e top env (observeNode e top r w) h).tracker :=
  disk_run h (by simp [observeNode, hw])

variable (hist : History (dirtyPlan e top r w) h) (hw' : w' = interrupted e top r w env h)

include hist hw'

theorem interrupted_mode {j : Step} (hj : j ∈ planSteps e top r w) (hne : j ≠ .recordMode)
    (hunfinished : performed h j ≠ j.effects) (hm : modeDirty e w = true) :
    modeDirty e w' = true := by
  have hnot : Effect.markMode ∉ performed h .recordMode := by
    intro hmem
    rw [planSteps, if_pos hm, mem_append, mem_singleton] at hj
    refine hunfinished (hist.needs_finished (j := .recordMode) ?_ (hj.resolve_right hne))
    exact ne_nil_of_mem hmem
  rw [modeDirty, hw', interrupted_disk hw, mode_run hist, if_neg hnot]
  exact hm

theorem interrupted_link (hl : l ∈ top.links) (hon : l.onNode e.node = true)
    (hunfinished : performed h (.wire l) ≠ (wire l).effects) :
    w'.disk.links l.id = previousLink e top r w l := by
  have hpre := hist.performed_prefix (.wire l)
  have hnot : Effect.markLink l ∉ performed h (.wire l) := by
    rcases prefix_concat_iff.mp (show _ <+: [Effect.wire l] ++ [.markLink l] from hpre) with
      heq | hpre
    · exact absurd heq hunfinished
    · exact fun hmem => by simpa using hpre.subset hmem
  rw [hw', interrupted_disk hw, link_run hist hl, if_neg hnot, observed_link hl hon]

variable (hd : d ∈ top.devicesOnNode e.node)

include hd

theorem interrupted_device {v : DeviceView}
    (hv : v = (deviceEffects h d).foldl (·.apply e top env d ·)
      ((observeNode e top r w).view d.id)) :
    w'.container d.id = v.container ∧
      w'.control d.id = v.control ∧
      w'.disk.devices d.id = v.record ∧
      w'.disk.namespaces d.id = v.baseline := by
  rw [← view_run hist hd] at hv
  rw [hw', interrupted_disk hw]
  subst hv
  exact ⟨rfl, rfl, rfl, rfl⟩

theorem interrupted_unmade (hc : diffCreate e top r w d = false) :
    w'.container d.id = w.container d.id := by
  obtain ⟨hcont, -⟩ := interrupted_device hw hist hw' hd rfl
  rw [hcont, (containers_of_configured top env (d := d) (fun eff heff => ?_) _).1]
  · rfl
  · simp only [deviceEffects, mem_append] at heff
    rcases heff with (heff | heff) | heff
    · have hjob := create_mem_planSteps.mp (hist.mem_jobs (mem_performed.mp heff))
      rw [hc] at hjob
      cases hjob.2
    · exact .inl ((hist.performed_prefix (.configure d)).subset heff)
    · exact .inr ((hist.performed_prefix (.ready d)).subset heff)

theorem interrupted_label (hlabel : (madeContainer e top w d).hashLabel ≠ top.hash) :
    ∃ c, w'.container d.id = some c ∧ c.hashLabel ≠ top.hash := by
  obtain ⟨hcont, -⟩ := interrupted_device hw hist hw' hd rfl
  have hkept : Labelled e d (madeContainer e top w d).hashLabel (w.container d.id) := by
    simp only [madeContainer] at hlabel ⊢
    cases hc : w.container d.id with
    | none => simp [hc, newContainer] at hlabel
    | some c =>
      simp only [hc] at hlabel ⊢
      split_ifs at hlabel ⊢ with hgone
      · exact absurd rfl hlabel
      · simp only [or_eq_true, beq_iff_eq, not_or, Bool.not_eq_true] at hgone
        exact ⟨c, rfl, hgone.1, hgone.2, rfl⟩
  obtain ⟨c, hc, -, -, hsame⟩ := labelled_foldl top env (deviceEffects h d)
    (v := (observeNode e top r w).view d.id) hkept
  exact ⟨c, hcont.trans hc, hsame ▸ hlabel⟩

variable (hr : e.renders = true)

include hr

theorem configure_resumes_unmade
    (hplan : diffConfigure e top r w d = true)
    (hunfinished : performed h (.configure d) ≠ (configure d).effects)
    (hc : diffCreate e top r w d = false) (hobs : observedConfigure e top w d = true)
    (hm : modeDirty e w = false) :
    observedConfigure e top w' d = true := by
  have hcreate : performed h (.create d) = [] := hist.performed_nil fun hj =>
    Bool.false_ne_true (hc.symm.trans (create_mem_planSteps.mp hj).2)
  have hready : performed h (.ready d) = [] :=
    performed_nil_of_unfinished hist (by simp [Step.needs, hplan]) hunfinished
  have heffs : deviceEffects h d = performed h (.configure d) := by
    simp [deviceEffects, hcreate, hready]
  obtain ⟨hcont, hctl, hrec, -⟩ := interrupted_device hw hist hw' hd rfl
  have hpre := hist.performed_prefix (.configure d)
  obtain ⟨hkcont, hkctl⟩ := containers_of_configured (e := e) top env
    (fun eff heff => .inl (hpre.subset heff)) ((observeNode e top r w).view d.id)
  have hkrec := record_partway (e := e) top env hpre hunfinished
    ((observeNode e top r w).view d.id)
  rw [heffs, hkcont] at hcont
  rw [heffs, hkctl] at hctl
  rw [heffs, hkrec, observed_device hd] at hrec
  -- The containers are as they were, so the device is as clean as it was.
  have hspec : specDirty e w' d = specDirty e w d := by
    simp only [specDirty, primaryRecreate, controlDirty, hcont, hctl]
    rfl
  have hboot : bootstraps e top w' d = bootstraps e top w d := by
    simp only [bootstraps, hspec, hcont]
    rfl
  have hclean : specDirty e w d = false := by
    simp only [diffCreate, observeDevice, Bool.or_eq_false_iff] at hc
    exact hc.1
  simp only [observedConfigure, hm, hclean, Bool.false_or, and_eq_true] at hobs
  cases hprev : previousRecord e top w d with
  | some previous =>
    rw [hprev] at hrec hobs
    exact observedConfigure_of_record hr hrec hobs.2
  | none =>
    rw [hprev] at hrec
    refine observedConfigure_of_unknown hr hrec ?_
    rw [hboot]
    simp only [previousRecord] at hprev
    split at hprev
    · simp at hprev
    · simpa [hm] using hprev

theorem configure_resumes_made
    (hunfinished : performed h (.configure d) ≠ (configure d).effects)
    (hc : diffCreate e top r w d = true) (hcond : deviceResumes e top r w env d = true) :
    observedConfigure e top w' d = true ∨
      replaced e r' w' d = true := by
  have hplan := configure_of_create hr hc
  have hready : performed h (.ready d) = [] :=
    performed_nil_of_unfinished hist (by simp [Step.needs, hplan]) hunfinished
  obtain ⟨hcont, -, hrec, hbase⟩ := interrupted_device hw hist hw' hd rfl
  have hpre := hist.performed_prefix (.create d)
  by_cases hfull : performed h (.create d) = (create d).effects
  · -- The container is recorded as made and nothing more.
    left
    refine observedConfigure_of_record hr ?_ createdRecord_differs
    rw [hrec, deviceEffects, hready, hfull, append_nil, foldl_append,
      record_partway top env (hist.performed_prefix (.configure d)) hunfinished]
    rfl
  · have hconf : performed h (.configure d) = [] :=
      performed_nil_of_unfinished hist (by simp [Step.needs, hc]) hfull
    have heffs : deviceEffects h d = performed h (.create d) := by
      simp [deviceEffects, hconf, hready]
    rw [heffs] at hcont hrec hbase
    have hcase := made_partway hpre rfl hcont
    obtain ⟨hpbase, hprec⟩ := recorded_partway (e := e) top env hpre
      ((observeNode e top r w).view d.id)
    rw [hprec hfull, observed_device hd] at hrec
    rw [hpbase, observed_namespace hd] at hbase
    rw [deviceResumes, if_pos hc, or_eq_true] at hcond
    rcases hcond with hmoved | hrecord
    · exact (create_of_moved r' hmoved hbase hcase).imp_left (observedConfigure_of_dirty hr)
    · left
      cases hknown : w.disk.devices d.id with
      | some previous =>
        simp only [hknown] at hrecord
        simp only [previousRecord, hknown] at hrec
        exact observedConfigure_of_record hr hrec hrecord
      | none =>
        simp only [hknown, not_eq_true', Bool.and_eq_false_iff, decide_eq_false_iff_not,
          beq_eq_false_iff_ne] at hrecord
        have hnever : bootstraps e top w d = false := by
          by_contra hb
          have hlab := label_of_bootstraps (by simpa using hb)
          exact hrecord.elim (absurd hlab.1) (absurd hlab.2)
        simp only [previousRecord, hknown, hnever, Bool.false_and, false_eq_true,
          if_false] at hrec
        rcases hcase with hstart | hstarted
        · exact observedConfigure_of_dirty hr (specDirty_of_willStart hstart)
        · refine observedConfigure_of_unknown hr hrec ?_
          rcases hrecord with hasn | hlab
          · simp [bootstraps, hasn]
          · simp [bootstraps, hstarted, startedContainer_labels, hlab]

theorem moved_resumes
    (hl : l ∈ top.links) (ht : l.touches d = true) (hplan : diffWire e top r w l = true)
    (hunfinished : performed h (.wire l) ≠ (wire l).effects)
    (hc : diffCreate e top r w d = true) (hmoved : movedFromBaseline e top w env d = true) :
    diffCreate e top r' w' d = true := by
  have hconf : performed h (.configure d) = [] := by
    refine performed_nil_of_unfinished hist ?_ hunfinished
    simp only [Step.needs, mem_append, mem_map, mem_filter, and_eq_true]
    exact .inr ⟨l, ⟨hl, ht, hplan⟩, rfl⟩
  have hready : performed h (.ready d) = [] :=
    performed_nil_of_unfinished hist (by simp [Step.needs, configure_of_create hr hc])
      (n := .configure d) (by simp [hconf, Step.effects])
  obtain ⟨hcont, -, -, hbase⟩ := interrupted_device hw hist hw' hd rfl
  have heffs : deviceEffects h d = performed h (.create d) := by
    simp [deviceEffects, hconf, hready]
  have hpre := hist.performed_prefix (.create d)
  rw [heffs] at hcont hbase
  rw [(recorded_partway top env hpre _).1, observed_namespace hd] at hbase
  simp only [diffCreate, observeDevice, or_eq_true]
  exact create_of_moved _ hmoved hbase (made_partway hpre rfl hcont)

end Interrupted

/-- An unfinished configuration is planned again. -/
theorem configure_resumes (hcond : Resumable e top r w env)
    (hist : History (dirtyPlan e top r w) h) (hw' : w' = interrupted e top r w env h)
    (hd : d ∈ top.devicesOnNode e.node)
    (hplan : diffConfigure e top r w d = true)
    (hunfinished : performed h (.configure d) ≠ (configure d).effects) :
    diffConfigure e top r' w' d = true := by
  obtain ⟨hr, hw, hfound⟩ := hcond
  have hgoal : observedConfigure e top w' d = true ∨
      replaced e r' w' d = true := by
    by_cases hm : modeDirty e w = true
    · have hmode := interrupted_mode hw hist hw' (configure_mem_planSteps.mpr ⟨hd, hplan⟩)
        (by simp) hunfinished hm
      exact .inl (by simp [observedConfigure, hr, hmode])
    · have hdev := (hfound.resolve_left hm).1 d hd hplan
      cases hc : diffCreate e top r w d with
      | true => exact configure_resumes_made hw hist hw' hd hr hunfinished hc hdev
      | false =>
        rw [deviceResumes, hc] at hdev
        exact .inl (configure_resumes_unmade hw hist hw' hd hr hplan hunfinished hc hdev
          (by simpa using hm))
  rcases hgoal with hobs | hrep
  · simp [diffConfigure, observeDevice, hobs]
  · simp [diffConfigure, lost, hrep]

/-- An unfinished link is planned again. -/
theorem wire_resumes (hcond : Resumable e top r w env) (hist : History (dirtyPlan e top r w) h)
    (hw' : w' = interrupted e top r w env h) (hl : l ∈ top.links)
    (hplan : diffWire e top r w l = true)
    (hunfinished : performed h (.wire l) ≠ (wire l).effects) : diffWire e top r' w' l = true := by
  obtain ⟨hr, hw, hfound⟩ := hcond
  have hon : l.onNode e.node = true := (Bool.and_eq_true_iff.mp hplan).1
  have hlink := interrupted_link hw hist hw' hl hon hunfinished
  have hends : ∀ d ∈ [l.a, l.b], d.node = e.node →
      d ∈ top.devicesOnNode e.node ∧ l.touches d = true := by
    intro d hd hnode
    refine ⟨end_mem_devicesOnNode hl hd hnode, ?_⟩
    rcases mem_pair.mp hd with rfl | rfl <;> simp [Link.touches]
  by_cases hm : modeDirty e w = true
  · have hmode := interrupted_mode hw hist hw' (wire_mem_planSteps.mpr ⟨hl, hplan⟩) (by simp)
      hunfinished hm
    simp [diffWire, hon, hmode]
  · have hres := (hfound.resolve_left hm).2 l hl hplan
    refine wire_of_record hon ?_
    rw [hlink]
    cases hend : endpointCreate e top r w l with
    | true =>
      rw [linkResumes, if_pos hend, or_eq_true] at hres
      rcases hres with hmoved | hrec
      · left
        simp only [any_eq_true, and_eq_true, beq_iff_eq] at hmoved
        obtain ⟨d, hd, ⟨hnode, hc⟩, hmv⟩ := hmoved
        obtain ⟨hdn, ht⟩ := hends d hd hnode
        simp only [endpointCreate, any_eq_true, and_eq_true, beq_iff_eq]
        exact ⟨d, hd, hnode, moved_resumes hw hist hw' hdn hr hl ht hplan hunfinished hc hmv⟩
      · right
        cases hknown : w.disk.links l.id with
        | some hash =>
          simp only [hknown] at hrec
          simpa [previousLink, hknown] using hrec
        | none =>
          simp only [hknown, any_eq_true, and_eq_true, beq_iff_eq, bne_iff_ne] at hrec
          obtain ⟨d, hd, hnode, hlabel⟩ := hrec
          obtain ⟨c, hc, hne⟩ := interrupted_label hw hist hw' (hends d hd hnode).1 hlabel
          simp only [previousLink, hknown, hend, Bool.not_true, Bool.false_and,
            false_eq_true, if_false, not_eq_true']
          refine all_eq_false.mpr ⟨d, hd, ?_⟩
          simp [hnode, hc, hne]
    | false =>
      right
      rw [linkResumes, hend] at hres
      simp only [false_eq_true, if_false] at hres
      cases hprev : previousLink e top r w l with
      | some hash =>
        rw [hprev] at hres
        simpa using hres
      | none =>
        -- The ends are not made again, so their labels are what they were.
        have hlabels : linkLabelHashMatches e top w' l =
            linkLabelHashMatches e top w l := by
          rw [Bool.eq_iff_iff]
          simp only [linkLabelHashMatches, all_eq_true]
          refine forall₂_congr fun d hd => ?_
          by_cases hnode : d.node = e.node
          · have hc : diffCreate e top r w d = false := by
              have hall := any_eq_false.mp hend d hd
              simpa [hnode] using hall
            rw [interrupted_unmade hw hist hw' (hends d hd hnode).1 hc]
          · simp [hnode]
        have hnone : linkLabelHashMatches e top w l = false := by
          unfold previousLink at hprev
          split at hprev
          · simp at hprev
          · simpa [hend] using hprev
        simp [hlabels, hnone]

/-- Whatever prefix of the effects of a plan was performed when the agent died,
    the next plan for the same topology and mode configures every device and
    wires every link whose step was not finished. -/
theorem interrupted_deployment_resumes {p p' : Schedule Step Effect} {w₀ w₁ : World}
    (hbuild : buildContext e top r w = some (p, w₀)) (hcond : Resumable e top r w env)
    (hist : History p h)
    (hnext : buildContext e top r' (crash (runPlan e top env w₀ h)) = some (p', w₁)) :
    (∀ d, configure d ∈ p.jobs → performed h (.configure d) ≠ p.effects (.configure d) →
        configure d ∈ p'.jobs) ∧
      ∀ l, wire l ∈ p.jobs → performed h (.wire l) ≠ p.effects (.wire l) →
        wire l ∈ p'.jobs := by
  by_cases hempty : (top.devicesOnNode e.node).isEmpty = true
  · -- A node without devices has nothing to do.
    rw [buildContext, if_pos hempty] at hbuild
    obtain ⟨rfl, -⟩ := Prod.mk.inj (Option.some.inj hbuild)
    exact ⟨fun d hd => absurd hd (by simp), fun l hl => absurd hl (by simp)⟩
  · obtain ⟨d, hd⟩ := exists_mem_of_ne_nil _ (by simpa using hempty)
    obtain ⟨rfl, rfl⟩ := buildContext_of_mem hbuild hd
    obtain ⟨rfl, -⟩ := buildContext_of_mem hnext hd
    refine ⟨fun d hjob hunfinished => ?_, fun l hjob hunfinished => ?_⟩
    · obtain ⟨hdn, hplan⟩ := configure_mem_planSteps.mp hjob
      exact configure_mem_planSteps.mpr
        ⟨hdn, configure_resumes hcond hist rfl hdn hplan hunfinished⟩
    · obtain ⟨hl, hplan⟩ := wire_mem_planSteps.mp hjob
      exact wire_mem_planSteps.mpr ⟨hl, wire_resumes hcond hist rfl hl hplan hunfinished⟩

end Next

/-- A node on which the mode is recorded and nothing else. -/
def emptyNode : World :=
  let record : Record :=
    { mode := "platform", devices := fun _ => none, links := fun _ => none
      namespaces := fun _ => none }
  { deployedPair with container := fun _ => none, disk := record, tracker := record }

/-- The effects of a plan up to the start of the first router. -/
def startedOne : List (Step × Effect) :=
  [(.image "frr", .pull "frr"), (.verifyImage "frr", .verify "frr"),
    (.create routerOne, .replace routerOne), (.create routerOne, .create routerOne),
    (.create routerOne, .start routerOne)]

/-- The first router is made again from a new specification and the agent dies
    when it has been started: it is found in another namespace than the recorded
    one, so it is configured and its cable wired. -/
theorem recreated_router_resumes :
    let w := deployedPair.setContainer "as1/R1" (some { runningIn 1 with specLabel := "old" })
    ∃ p w₀ p' w₁, buildContext nodeEngine cabledPair allReadable w = some (p, w₀) ∧
      History p startedOne ∧
      buildContext nodeEngine cabledPair allReadable
        (crash (runPlan nodeEngine cabledPair quietRun w₀ startedOne)) = some (p', w₁) ∧
      configure routerOne ∈ p'.jobs ∧ ∀ l ∈ cabledPair.links, wire l ∈ p'.jobs := by
  intro w
  have hcond : Resumable nodeEngine cabledPair allReadable w quietRun := by decide
  have hist : History (dirtyPlan nodeEngine cabledPair allReadable w) startedOne :=
    history_of_legal (by decide)
  have hbuild : buildContext nodeEngine cabledPair allReadable w =
      some (dirtyPlan nodeEngine cabledPair allReadable w,
        observeNode nodeEngine cabledPair allReadable w) := by
    rfl
  let w' := crash (runPlan nodeEngine cabledPair quietRun
    (observeNode nodeEngine cabledPair allReadable w) startedOne)
  have hnext : buildContext nodeEngine cabledPair allReadable w' =
      some (dirtyPlan nodeEngine cabledPair allReadable w',
        observeNode nodeEngine cabledPair allReadable w') := by
    rfl
  have hresume := interrupted_deployment_resumes hbuild hcond hist hnext
  refine ⟨_, _, _, _, hbuild, hist, hnext, ?_, fun l hl => ?_⟩
  · exact hresume.1 routerOne (by decide) (by decide)
  · exact hresume.2 l (wire_mem_planSteps.mpr ⟨hl, by revert l; decide⟩) (by revert l; decide)

/-- A router nothing is recorded about is created and started, and the agent
    dies before that is recorded: the next build takes the router as configured
    and does not configure it. -/
theorem created_router_taken_as_configured :
    ∃ p w₀ p' w₁, buildContext nodeEngine cabledPair allReadable emptyNode = some (p, w₀) ∧
      History p startedOne ∧
      buildContext nodeEngine cabledPair allReadable
        (crash (runPlan nodeEngine cabledPair quietRun w₀ startedOne)) = some (p', w₁) ∧
      configure routerOne ∈ p.jobs ∧
      performed startedOne (.configure routerOne) ≠ p.effects (.configure routerOne) ∧
      configure routerOne ∉ p'.jobs := by
  have hist : History (dirtyPlan nodeEngine cabledPair allReadable emptyNode) startedOne :=
    history_of_legal (by decide)
  exact ⟨_, _, _, _, rfl, hist, rfl, by decide, by decide, by decide⟩

/-! ### What the condition leaves out -/

/-- The agent dies after `h`, and a step that was not finished is not in the next
    plan. -/
structure LosesStep (e : Engine) (top : Topology) (r r' : Readings) (w : World)
    (h : List (Step × Effect)) (j : Step) : Prop where
  crashed : History (dirtyPlan e top r w) h
  planned : j ∈ planSteps e top r w
  unfinished : performed h j ≠ j.effects
  lost : j ∉ planSteps e top r' (interrupted e top r w quietRun h)

/-- Every effect of these steps, one step after the other. -/
def allOf (steps : List Step) : List (Step × Effect) :=
  steps.flatMap fun j => j.effects.map (j, ·)

def cable : Link := { id := "as1/R1:e0|as1/R2:e0", a := routerOne, b := routerTwo, vni := 1 }

/-- The first router is to have a sidecar. -/
def withSidecar : Engine :=
  { nodeEngine with desired := fun d =>
      { nodeEngine.desired d with
        controlHash := if d.id = "as1/R1" then some "control" else none } }

/-- The second router is on another node. -/
def tunnel : Link :=
  { id := "as1/R1:e0|as1/R2:e0", a := routerOne, b := { routerTwo with node := "n2" }, vni := 1 }

def tunnelledPair : Topology :=
  { cabledPair with
    devices := [tunnel.a, tunnel.b]
    links := [tunnel]
    distinct := by decide
    distinctLinks := by decide
    distinctVni := by decide
    endpoints := by decide }

/-- Each kind of step the condition leaves out is lost at some point: of a device made
    again where namespaces are not told apart, and of its cable; of a router beside one
    whose new namespace is already on record; of a router only a probe found wrong; of
    a router that only misses its sidecar, and of its cable; and of a tunnel whose
    binding alone is wrong. -/
theorem left_out_steps_lost :
    (let e := { nodeEngine with supportsNetnsIdentity := false }
     let w := deployedPair.setContainer "as1/R1" (some { runningIn 1 with specLabel := "old" })
     LosesStep e cabledPair allReadable allReadable w startedOne (.configure routerOne) ∧
       LosesStep e cabledPair allReadable allReadable w startedOne (.wire cable)) ∧
    (let w := deployedPair.setContainer "as1/R1" (some (runningIn 3))
     LosesStep nodeEngine cabledPair allReadable allReadable w
       (allOf [.image "frr", .verifyImage "frr", .create routerOne, .wire cable,
         .configure routerOne]) (.configure routerTwo)) ∧
    LosesStep { nodeEngine with probesSemantics := true } cabledPair
      { allReadable with semanticOk := fun d => d.id ≠ "as1/R2" } allReadable deployedPair []
      (.configure routerTwo) ∧
    (let h := startedOne ++ [(.create routerOne, .control routerOne)]
     LosesStep withSidecar cabledPair allReadable allReadable deployedPair h
         (.configure routerOne) ∧
       LosesStep withSidecar cabledPair allReadable allReadable deployedPair h (.wire cable)) ∧
    LosesStep nodeEngine tunnelledPair allReadable allReadable deployedPair
      [(.wire tunnel, .wire tunnel)] (.wire tunnel) := by
  refine ⟨⟨?_, ?_⟩, ?_, ?_, ⟨?_, ?_⟩, ?_⟩ <;>
    exact ⟨history_of_legal (by decide +kernel), by decide +kernel, by decide +kernel,
      by decide +kernel⟩

end Deploy

end Twinet
