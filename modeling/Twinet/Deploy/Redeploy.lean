import Twinet.Deploy.Stable

/-!
# A Second Deployment Is Empty

The claim about a whole node: when a plan has run to its end and nothing has
changed since, the next build has nothing to do exactly when the node it started
from is stable. The devices are settled one by one; here the links, the overlay
and the record are put together with them.

## Main definitions

* `wiredLinks`: The cross-node links a run has wired.

## Theorems

* `overlay_run`: The overlay after a run.
* `disk_complete`: A complete run has written its record, unless it was empty.
* `redeploy_noop_iff`: The second plan is empty exactly when the node is stable.
-/

namespace Twinet

namespace Deploy

open Schedule List

/-- The cross-node links a run has wired, in order. -/
def wiredLinks (h : List (Step × Effect)) : List Link :=
  h.filterMap fun x =>
    match x.2 with
    | .wire l => if l.crossNode then some l else none
    | _ => none

section Run

variable {e : Engine} {top : Topology} {r r' : Readings} {w : World} {env : RunEnv} {d : Device}
  {h : List (Step × Effect)} {w₀ : World}

/-- The overlay of a run is made by its wire steps in order. -/
theorem overlay_run {o : HostOverlay}
    (hrun : (wiredLinks h).foldlM (fun o l => wireOverlay e l o) w₀.overlay = some o) :
    (runPlan e top env w₀ h).overlay = o := by
  induction h using reverseRecOn generalizing o with
  | nil => exact Option.some.inj hrun
  | append_singleton h x ih =>
    rw [wiredLinks, filterMap_append, foldlM_append, Option.bind_eq_bind,
      Option.bind_eq_some_iff] at hrun
    obtain ⟨o₁, hfirst, hlast⟩ := hrun
    have hbefore := ih hfirst
    rw [runPlan, run_concat]
    change (applyEffect e top env x.2 (runPlan e top env w₀ h)).overlay = o
    rw [(record_apply x.2 _).2.2.1]
    obtain ⟨j, eff⟩ := x
    cases eff with
    | wire l =>
      simp only [applyWire, hbefore]
      by_cases hcross : l.crossNode = true
      · simp only [filterMap_cons, hcross, if_true, filterMap_nil, foldlM_cons,
          foldlM_nil, Option.bind_eq_bind, Option.bind_eq_some_iff] at hlast
        obtain ⟨o₂, hwire, heq⟩ := hlast
        simpa [hcross, hwire] using heq
      · simp only [filterMap_cons, hcross, filterMap_nil] at hlast
        simpa [hcross] using hlast
    | _ => exact hbefore.trans (Option.some.inj hlast)

theorem wiredLinks_complete (hc : Complete (dirtyPlan e top r w) h) :
    (∀ l ∈ wiredLinks h, l ∈ crossLinks e top) ∧
      ∀ l ∈ crossLinks e top, l ∉ wiredLinks h →
        dirtyOverlayBindings e top w.overlay l.vni = false := by
  have hmem : ∀ l, l ∈ wiredLinks h ↔ l.crossNode = true ∧ (Step.wire l, Effect.wire l) ∈ h := by
    intro l
    simp only [wiredLinks, mem_filterMap]
    constructor
    · rintro ⟨⟨j, eff⟩, hx, hl⟩
      cases eff with
      | wire k =>
        simp only at hl
        split_ifs at hl with hcross
        obtain rfl := Option.some.inj hl
        have heff : Effect.wire k ∈ j.effects := hc.1.mem_effects hx
        -- a link is wired by its own step
        have hj : j = .wire k := by
          cases j <;> simp [Step.effects] at heff ⊢
          exact heff.symm
        exact ⟨hcross, hj ▸ hx⟩
      | _ => simp at hl
    · rintro ⟨hcross, hx⟩
      exact ⟨_, hx, by simp [hcross]⟩
  constructor
  · intro l hl
    obtain ⟨hcross, hx⟩ := (hmem l).mp hl
    obtain ⟨hlink, hw⟩ := wire_mem_planSteps.mp (hc.1.mem_jobs hx)
    exact mem_filter.mpr ⟨hlink, by simp [hcross, (Bool.and_eq_true_iff.mp hw).1]⟩
  · intro l hl hnot
    obtain ⟨hlink, hcross⟩ := mem_filter.mp hl
    rw [Bool.and_eq_true] at hcross
    have hw : ¬ diffWire e top r w l = true := by
      intro hw
      have hdone := hc.2 _ (wire_mem_planSteps.mpr ⟨hlink, hw⟩)
      refine hnot ((hmem l).mpr ⟨hcross.1, mem_performed.mp ?_⟩)
      rw [hdone]
      simp [dirtyPlan, Step.effects]
    simp only [diffWire, hcross.2, hcross.1, Bool.true_and, Bool.or_eq_true, not_or,
      Bool.not_eq_true] at hw
    exact hw.2

/-- The marks that are always written. -/
def Effect.isMark : Effect → Bool
  | markCreated _ => true
  | markLink _ => true
  | markConfigured _ => true
  | markReady _ => true
  | markMode => true
  | _ => false

theorem disk_of_mark (hmark : ∃ x ∈ h, x.2.isMark = true) :
    (runPlan e top env w₀ h).disk = (runPlan e top env w₀ h).tracker := by
  induction h using reverseRecOn with
  | nil => simp at hmark
  | append_singleton h x ih =>
    rw [runPlan, run_concat]
    change (applyEffect e top env x.2 (runPlan e top env w₀ h)).disk = _
    by_cases hlast : x.2.isMark = true
    · cases heff : x.2 <;> simp [heff, Effect.isMark] at hlast <;> rfl
    · obtain ⟨y, hy, hmy⟩ := hmark
      have hin : y ∈ h := by
        rcases mem_append.mp hy with hy | hy
        · exact hy
        · rw [mem_singleton.mp hy] at hmy
          exact absurd hmy hlast
      exact (record_apply x.2 _).2.2.2 (ih ⟨y, hin, hmy⟩)

/-- After a complete run the record is on disk. -/
theorem disk_complete (env : RunEnv) (hc : Complete (dirtyPlan e top r w) h) :
    (deployed e top r w env h).disk = (deployed e top r w env h).tracker ∨
      planSteps e top r w = [] ∧ e.observationReadOnly = true := by
  cases hro : e.observationReadOnly with
  | false => exact .inl (disk_run h (by simp [observeNode, hro]))
  | true =>
    by_cases hmark : ∃ x ∈ h, x.2.isMark = true
    · exact .inl (disk_of_mark hmark)
    · refine .inr ⟨?_, rfl⟩
      -- Every step that does something ends with a mark.
      have hnone : ∀ j eff, eff ∈ j.effects → eff.isMark = true → j ∉ planSteps e top r w := by
        intro j eff heff hmarked hj
        have hdone : performed h j = j.effects := hc.2 j hj
        exact hmark ⟨(j, eff), mem_performed.mp (by rw [hdone]; exact heff), hmarked⟩
      refine planSteps_eq_nil_iff.mpr ⟨fun d hd => ⟨?_, ?_, ?_⟩, fun l hl => ?_, ?_⟩ <;>
        by_contra hne <;> rw [Bool.not_eq_false] at hne
      · exact hnone _ (.markCreated d) (by simp [Step.effects]) rfl
          (create_mem_planSteps.mpr ⟨hd, hne⟩)
      · exact hnone _ (.markConfigured d) (by simp [Step.effects]) rfl
          (configure_mem_planSteps.mpr ⟨hd, hne⟩)
      · rw [Bool.and_eq_true, Bool.and_eq_true, and_assoc] at hne
        exact hnone _ (.markReady d) (by simp [Step.effects]) rfl
          (ready_mem_planSteps.mpr ⟨hd, hne⟩)
      · exact hnone _ (.markLink l) (by simp [Step.effects]) rfl
          (wire_mem_planSteps.mpr ⟨hl, hne⟩)
      · exact hnone _ .markMode (by simp [Step.effects]) rfl (recordMode_mem_planSteps.mpr hne)

theorem build_nil_iff (hne : top.devicesOnNode e.node ≠ []) :
    (∃ p w₁, buildContext e top r w = some (p, w₁) ∧ p.jobs = []) ↔
      controlsProvable e top w = true ∧ planSteps e top r w = [] := by
  have hdev : ¬ (top.devicesOnNode e.node).isEmpty = true := by simpa using hne
  unfold buildContext
  rw [if_neg hdev]
  constructor
  · rintro ⟨p, w₁, hbuild, hnil⟩
    split_ifs at hbuild with hprov
    obtain ⟨rfl, -⟩ := Prod.mk.inj (Option.some.inj hbuild)
    exact ⟨by simpa using hprov, hnil⟩
  · rintro ⟨hprov, hnil⟩
    have hnone : flagged e top (diffCreate e top r w) = [] :=
      flagged_eq_nil fun d hd => ((planSteps_eq_nil_iff.mp hnil).1 d hd).1
    exact ⟨dirtyPlan e top r w, observeNode e top r w, by simp [hprov, hnone], hnil⟩

theorem controlsProvable_iff (hclean : ∀ d ∈ top.devicesOnNode e.node, specDirty e w d = false) :
    controlsProvable e top w = true ↔ e.supportsNetnsIdentity = true ∨
      ∀ d ∈ top.devicesOnNode e.node, (e.desired d).controlHash = none := by
  simp only [controlsProvable, Bool.or_eq_true, all_eq_true, Option.isNone_iff_eq_none]
  refine or_congr_right (forall₂_congr fun d hd => ?_)
  simp [hclean d hd]

theorem overlay_of_clean (hlinks : ∀ l ∈ top.links, diffWire e top r w l = false) :
    ∀ l ∈ crossLinks e top, dirtyOverlayBindings e top w.overlay l.vni = false := by
  intro l hl
  obtain ⟨hlink, hcross⟩ := mem_filter.mp hl
  rw [Bool.and_eq_true] at hcross
  have hw := hlinks l hlink
  simp only [diffWire, hcross.1, hcross.2, Bool.true_and, Bool.or_eq_false_iff] at hw
  exact hw.2

theorem lost_of_replaced (h : ∀ d ∈ top.devicesOnNode e.node, replaced e r w d = false)
    (hd : d ∈ top.devicesOnNode e.node) : lost e top r w d = false := by
  simp only [lost, h d hd, Bool.false_or, any_eq_false]
  intro y hy
  simp [h y hy]

theorem endpointCreate_of_clean {l : Link} (hl : l ∈ top.links)
    (h : ∀ d ∈ top.devicesOnNode e.node, diffCreate e top r w d = false) :
    endpointCreate e top r w l = false := by
  refine any_eq_false.mpr fun d hd => ?_
  by_cases hnode : d.node = e.node
  · simp [h d (end_mem_devicesOnNode hl hd hnode)]
  · simp [hnode]

theorem planSteps_after_iff (hrecovery : e.recoveryCompatibility = false)
    (hc : Complete (dirtyPlan e top r w) h) {w' : World} (hw' : w' = deployed e top r w env h)
    (hdisk : w'.disk = w'.tracker) (hreads : ReadsAll e top r' w')
    (haccepted : ((wiredLinks h).foldlM (fun o l => wireOverlay e l o) w.overlay).isSome = true) :
    planSteps e top r' w' = [] ↔
      (∀ d ∈ top.devicesOnNode e.node, containerSettles e top w d = true ∧
        controlSettles e top w env d = true ∧ strandedBaseline e top r w env d = false) ∧
      (crossLinks e top = [] ∨ Settles e top w.overlay) := by
  obtain ⟨o, ho⟩ := Option.isSome_iff_exists.mp haccepted
  have hoverlay : w'.overlay = o := hw' ▸ overlay_run ho
  obtain ⟨hwired, hleft⟩ := wiredLinks_complete hc
  rw [← overlay_clean_iff hwired hleft ho]
  -- A device is made again exactly when it is not stable.
  have hmake : ∀ d ∈ top.devicesOnNode e.node,
      diffCreate e top r' w' d = false ↔
        containerSettles e top w d = true ∧ controlSettles e top w env d = true ∧
          strandedBaseline e top r w env d = false := by
    intro d hd
    simp [diffCreate, observeDevice, replaced, specDirty_after hc hw' hd hrecovery,
      controlSplit_after hc hw' hd hreads, namespaceReplaced_after hc hw' hd hreads hdisk,
      and_assoc]
  rw [planSteps_eq_nil_iff]
  constructor
  · rintro ⟨hdev, hlinks, -⟩
    exact ⟨fun d hd => (hmake d hd).mp (hdev d hd).1, hoverlay ▸ overlay_of_clean hlinks⟩
  · rintro ⟨hdev, hoverlayClean⟩
    have hcreate : ∀ d ∈ top.devicesOnNode e.node,
        diffCreate e top r' w' d = false :=
      fun d hd => (hmake d hd).mpr (hdev d hd)
    have hparts : ∀ d ∈ top.devicesOnNode e.node,
        specDirty e w' d = false ∧
          replaced e r' w' d = false := by
      intro d hd
      have hd' := hcreate d hd
      simp only [diffCreate, observeDevice, Bool.or_eq_false_iff] at hd'
      exact hd'
    refine ⟨fun d hd => ⟨hcreate d hd, ?_⟩, fun l hl => ?_, mode_after hc hw' hdisk⟩
    · exact configure_after hc hw' hd hreads hdisk (hparts d hd).1
        (lost_of_replaced (fun d hd => (hparts d hd).2) hd)
    · by_cases hon : l.onNode e.node = true
      · have hend := endpointCreate_of_clean hl hcreate
        have hlink := link_after hc hw' hl hon
        rw [← hdisk] at hlink
        have hclean : (l.crossNode &&
            dirtyOverlayBindings e top w'.overlay l.vni) = false := by
          cases hcross : l.crossNode with
          | false => rfl
          | true =>
            rw [hoverlay]
            exact hoverlayClean l (mem_filter.mpr ⟨hl, by simp [hcross, hon]⟩)
        simp [diffWire, mode_after hc hw' hdisk, hend, previousLink, hlink, hclean]
      · simp [diffWire, hon]

theorem specDirty_of_nil (hnil : planSteps e top r w = []) :
    ∀ d ∈ top.devicesOnNode e.node, specDirty e w d = false := by
  intro d hd
  have hwas := ((planSteps_eq_nil_iff.mp hnil).1 d hd).1
  simp only [diffCreate, observeDevice, Bool.or_eq_false_iff] at hwas
  exact hwas.1

theorem stable_of_clean (hnil : planSteps e top r w = []) :
    (∀ d ∈ top.devicesOnNode e.node, containerSettles e top w d = true ∧
      controlSettles e top w env d = true ∧ strandedBaseline e top r w env d = false) ∧
    (crossLinks e top = [] ∨ Settles e top w.overlay) := by
  obtain ⟨hdev, hlinks, -⟩ := planSteps_eq_nil_iff.mp hnil
  constructor
  · intro d hd
    -- a device without a step runs under the spec asked for
    have hspec := specDirty_of_nil hnil d hd
    have hstart := not_willStart_of_clean hspec
    obtain ⟨c, hcont, -, habsent, hkeep⟩ := container_of_not_willStart hstart
    simp only [specDirty, primaryRecreate, hcont, Bool.or_eq_false_iff, bne_eq_false_iff_eq]
      at hspec
    obtain ⟨⟨⟨⟨-, hcontract⟩, -⟩, -⟩, hcontrol⟩ := hspec
    refine ⟨by simp [containerSettles, madeContainer, hcont, habsent, hkeep, hcontract], ?_,
      by simp [strandedBaseline, hstart]⟩
    unfold controlSettles
    cases hhash : (e.desired d).controlHash with
    | none => rfl
    | some hash =>
      simp only [controlDirty, hhash] at hcontrol
      simp only [survivingControl, hcont, Option.any_some, hkeep, Bool.false_eq_true, if_false]
      cases hctl : w.control d.id with
      | none => rfl
      | some k =>
        simp only [hctl, Bool.or_eq_false_iff, bne_eq_false_iff_eq] at hcontrol
        simp [hcontrol.2]
  · have hclean := overlay_of_clean hlinks
    have hnone : ∀ l ∈ ([] : List Link), l ∈ crossLinks e top := by simp
    exact (overlay_clean_iff hnone (fun l hl _ => hclean l hl) rfl).mp hclean

theorem planSteps_nil_of_reads (hreads : ReadsAll e top r' w) (hnil : planSteps e top r w = []) :
    planSteps e top r' w = [] := by
  obtain ⟨hdev, hlinks, hmode⟩ := planSteps_eq_nil_iff.mp hnil
  -- better readings find no more than there was
  have hreplaced : ∀ d ∈ top.devicesOnNode e.node, replaced e r' w d = false := by
    intro d hd
    have hwas := (hdev d hd).1
    simp only [diffCreate, replaced, Bool.or_eq_false_iff] at hwas ⊢
    refine ⟨?_, ?_⟩
    · have hsplit := hwas.2.1
      unfold controlSplit at hsplit ⊢
      cases hcont : w.container d.id <;> cases hctl : w.control d.id <;>
        simp_all [hreads.readable d hd, hreads.controlReadable d hd]
    · have hns := hwas.2.2
      unfold namespaceReplaced at hns ⊢
      cases hrec : w.disk.namespaces d.id <;> cases hcont : w.container d.id <;>
        simp_all [hreads.readable d hd]
  have hlost : ∀ d ∈ top.devicesOnNode e.node, lost e top r' w d = false :=
    fun d hd => lost_of_replaced hreplaced hd
  have hcreate : ∀ d ∈ top.devicesOnNode e.node, diffCreate e top r' w d = false := by
    intro d hd
    have hwas := (hdev d hd).1
    simp only [diffCreate, Bool.or_eq_false_iff] at hwas ⊢
    exact ⟨hwas.1, hreplaced d hd⟩
  refine planSteps_eq_nil_iff.mpr ⟨fun d hd => ⟨hcreate d hd, ?_, ?_⟩, fun l hl => ?_, hmode⟩
  · have hwas := (hdev d hd).2.1
    simp only [diffConfigure, Bool.or_eq_false_iff] at hwas ⊢
    exact ⟨⟨hwas.1.1, hlost d hd⟩, by simp [semanticDirty, hreads.semanticOk d hd]⟩
  · have hwas := (hdev d hd).2.2
    simp only [diffReady, semanticDirty, hlost d hd, hreads.semanticOk d hd] at hwas ⊢
    revert hwas
    cases e.renders <;> cases e.hasReady d <;> cases (observeDevice e top w d).ready <;> simp
  · have hwas := hlinks l hl
    have hnew := endpointCreate_of_clean hl hcreate
    by_cases hon : l.onNode e.node = true
    · simp only [diffWire, hon, Bool.true_and, Bool.or_eq_false_iff] at hwas ⊢
      refine ⟨⟨⟨hwas.1.1.1, hnew⟩, ?_⟩, hwas.2⟩
      have hprev := hwas.1.2
      simp only [previousLink, hwas.1.1.2, hnew] at hprev ⊢
      exact hprev
    · simp [diffWire, hon]

/-- A plan that has run to its end with no link refused, on a node whose
    identities can be read and whose probes pass, is followed by an empty plan
    exactly when the node it started from is stable. -/
theorem redeploy_noop_iff {p : Schedule Step Effect} {w₀ : World}
    (hrecovery : e.recoveryCompatibility = false)
    (hbuild : buildContext e top r w = some (p, w₀)) (hrun : Complete p h)
    (haccepted : ((wiredLinks h).foldlM (fun o l => wireOverlay e l o) w.overlay).isSome = true)
    (hreads : ReadsAll e top r' (runPlan e top env w₀ h)) :
    (∃ p' w₁, buildContext e top r' (runPlan e top env w₀ h) = some (p', w₁) ∧ p'.jobs = []) ↔
      Stable e top r w env := by
  by_cases hne : top.devicesOnNode e.node = []
  · have hbuilt : buildContext e top r' (runPlan e top env w₀ h) = some
        ({ jobs := [], needs := fun _ => [], effects := Step.effects },
          runPlan e top env w₀ h) := by
      simp [buildContext, hne]
    exact iff_of_true ⟨_, _, hbuilt, rfl⟩ (.inl hne)
  obtain ⟨d, hd⟩ := exists_mem_of_ne_nil _ hne
  obtain ⟨rfl, rfl⟩ := buildContext_of_mem hbuild hd
  rw [build_nil_iff hne, Stable, or_iff_right hne]
  change _ ∧ planSteps e top r' (deployed e top r w env h) = [] ↔ _
  have hsecond : planSteps e top r' (deployed e top r w env h) = [] ↔
      (∀ d ∈ top.devicesOnNode e.node, containerSettles e top w d = true ∧
        controlSettles e top w env d = true ∧ strandedBaseline e top r w env d = false) ∧
      (crossLinks e top = [] ∨ Settles e top w.overlay) := by
    rcases disk_complete env hrun with hdisk | ⟨hnil, hro⟩
    · exact planSteps_after_iff hrecovery hrun rfl hdisk hreads haccepted
    · -- Nothing was run and nothing was written: the node is as it was found.
      have hempty : h = [] := by
        refine eq_nil_iff_forall_not_mem.mpr fun x hx => ?_
        have hj : x.1 ∈ planSteps e top r w := hrun.1.mem_jobs hx
        rw [hnil] at hj
        cases hj
      subst hempty
      have hsame : planSteps e top r' (deployed e top r w env []) = planSteps e top r' w := by
        change planSteps e top r' (observeNode e top r w) = _
        simp only [observeNode, hro, if_true]
        rfl
      rw [hsame]
      exact iff_of_true (planSteps_nil_of_reads { hreads with } hnil) (stable_of_clean hnil)
  constructor
  · rintro ⟨hprov, hnil⟩
    exact ⟨(controlsProvable_iff (specDirty_of_nil hnil)).mp hprov, hsecond.mp hnil⟩
  · rintro ⟨hprov, hrest⟩
    have hnil := hsecond.mpr hrest
    exact ⟨(controlsProvable_iff (specDirty_of_nil hnil)).mpr hprov, hnil⟩

end Run

/-- A router of the same group on another node. -/
def routerFar : Device :=
  { id := "as1/R3", kind := .router, asn := 1, image := "frr", node := "n2" }

/-- Two routers of one student group, joined by a cable between two nodes. -/
def cabledHosts : Topology :=
  { name := "lab", hash := "h", devices := [routerOne, routerFar]
    links := [{ id := "as1/R1:e0|as1/R3:e0", a := routerOne, b := routerFar, vni := 7 }]
    role := fun n => if n = 1 then some .student else none
    distinct := by decide
    distinctLinks := by decide
    distinctVni := by decide
    endpoints := by decide }

/-- The first node after the hosts were deployed, with the trunk on a port. -/
def deployedHost (port : Nat) : World :=
  { deployedPair with
    overlay :=
      { carriers :=
          [{ pair := ("n1", "n2")
             trunk := { bridge := "twbp", vxlan := "twvp", mtu := 1400, port := port }
             sound := true, ports := true
             entries := [{ vni := 7, vlan := 2, peer := "10.0.0.2" }] }]
        legacy := [] } }

/-- The steps of a plan one after the other. -/
def inOrder (p : Schedule Step Effect) : List (Step × Effect) :=
  p.jobs.flatMap fun j => (p.effects j).map fun eff => (j, eff)

/-- A router is made again from a new specification and its cable wired on a
    trunk that is as it should be: the next plan is empty. -/
theorem recreated_router_settled :
    let w := (deployedHost 4789).setContainer "as1/R1"
      (some { runningIn 1 with specLabel := "old" })
    ∃ p w₀ p' w₁, buildContext nodeEngine cabledHosts allReadable w = some (p, w₀) ∧
      Complete p (inOrder p) ∧ p.jobs ≠ [] ∧
      buildContext nodeEngine cabledHosts allReadable
        (runPlan nodeEngine cabledHosts quietRun w₀ (inOrder p)) = some (p', w₁) ∧
      p'.jobs = [] := by
  intro w
  let p := dirtyPlan nodeEngine cabledHosts allReadable w
  have hbuild : buildContext nodeEngine cabledHosts allReadable w =
      some (p, observeNode nodeEngine cabledHosts allReadable w) := by
    rfl
  have hrun : Complete p (inOrder p) :=
    ⟨history_of_legal (by decide +kernel), by decide +kernel⟩
  have hreads : ReadsAll nodeEngine cabledHosts allReadable
      (runPlan nodeEngine cabledHosts quietRun
        (observeNode nodeEngine cabledHosts allReadable w) (inOrder p)) :=
    ⟨fun _ _ => rfl, fun _ _ => rfl, fun _ _ => rfl, by decide +kernel⟩
  have hstable : Stable nodeEngine cabledHosts allReadable w quietRun := by
    refine .inr ⟨.inl rfl, by decide, .inr ⟨?_, by decide, by decide⟩⟩
    intro c hc
    obtain rfl := mem_singleton.mp hc
    exact ⟨by decide, by decide, by decide⟩
  obtain ⟨p', w₁, hnext, hnil⟩ :=
    (redeploy_noop_iff rfl hbuild hrun (by decide) hreads).mpr hstable
  exact ⟨p, _, p', w₁, hbuild, hrun, by decide, hnext, hnil⟩

/-- The trunk carries a cable on another port than the one assigned now. Wiring
    the cable keeps it there, so the cable is wired again by every deployment. -/
theorem kept_port_wired_again :
    ∃ p w₀ p' w₁,
      buildContext nodeEngine cabledHosts allReadable (deployedHost 4790) = some (p, w₀) ∧
      Complete p (inOrder p) ∧
      ((wiredLinks (inOrder p)).foldlM (fun o l => wireOverlay nodeEngine l o)
        (deployedHost 4790).overlay).isSome = true ∧
      buildContext nodeEngine cabledHosts allReadable
        (runPlan nodeEngine cabledHosts quietRun w₀ (inOrder p)) = some (p', w₁) ∧
      ReadsAll nodeEngine cabledHosts allReadable
        (runPlan nodeEngine cabledHosts quietRun w₀ (inOrder p)) ∧
      p'.jobs ≠ [] := by
  let p := dirtyPlan nodeEngine cabledHosts allReadable (deployedHost 4790)
  let w₀ := observeNode nodeEngine cabledHosts allReadable (deployedHost 4790)
  let w' := runPlan nodeEngine cabledHosts quietRun w₀ (inOrder p)
  have hrun : Complete p (inOrder p) :=
    ⟨history_of_legal (by decide +kernel), by decide +kernel⟩
  have hreads : ReadsAll nodeEngine cabledHosts allReadable w' :=
    ⟨fun _ _ => rfl, fun _ _ => rfl, fun _ _ => rfl, by decide +kernel⟩
  have hnext : buildContext nodeEngine cabledHosts allReadable w' =
      some (dirtyPlan nodeEngine cabledHosts allReadable w',
        observeNode nodeEngine cabledHosts allReadable w') := by
    rw [buildContext, if_neg (by decide +kernel), if_neg (by decide +kernel),
      if_neg (by decide +kernel)]
  exact ⟨p, w₀, _, _, rfl, hrun, by decide +kernel, hnext, hreads, by decide +kernel⟩

end Deploy

end Twinet
