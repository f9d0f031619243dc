import Twinet.Deploy.View

/-!
# Rebuilt Interfaces Get Their State Back

A cable between two devices of a node is lost at both ends when the namespace
at either end is. When a plan wires it again, the addresses its owners had put
on it are gone from both devices and only the store still has them, so both
have to be replayed, after their cables are back and before the namespace is
recorded as good.

The planner replays a device that it creates or starts, and a device that was
found in a new namespace together with its neighbours. It does not replay the
neighbours of a device that it creates or starts itself.

## Main definitions

* `willStart`, `renewed`: A device whose task or namespace is a new one.
* `hasRebuilt`: A device with an interface that is destroyed and built again.
* `RestoredInOrder`: Its state is replayed when it should be.
* `replayPlanned`: The plan replays the device.
* `Provided`: What is found on the node about the device and its neighbours lets
  the plan do so.

## Theorems

* `replays_at`: Whether a configure step that gets to its replay replays.
* `restored_iff`: A device is restored in order exactly when the plan replays
  it.
* `lost_eq_besideReplaced`: Whose state is taken to be lost.
* `replayPlanned_iff_provided`: When the plan replays a device with a rebuilt interface.
* `rebuilt_restored_iff`: When every device with a rebuilt interface is restored.
-/

namespace Twinet

namespace Deploy

open Schedule List Bool
open DeviceView

section Rebuilt

variable (e : Engine) (top : Topology) (r : Readings) (w : World) (env : RunEnv)

/-- The task of the device is started by the plan: it has no container, one
    that is replaced, or one that is stopped. -/
def willStart (d : Device) : Bool :=
  match w.container d.id with
  | none => true
  | some c => c.state == .absent || mustReplace e d c || !c.state.joinable

/-- The device is created, recreated, restarted or found in a new namespace. -/
def renewed (d : Device) : Bool := willStart e w d || replaced e r w d

variable (cabled : String → Bool) (x : Device)

/-- A cable of the device that an earlier deployment built, and whose end on the
    device is lost: with its own namespace, or with the namespace on this node
    at the other end. -/
def rebuiltLink (l : Link) : Bool :=
  cabled l.id && (renewed e r w x || (!l.crossNode && renewed e r w (l.other x)))

/-- The device has an interface that is destroyed and built again. -/
def hasRebuilt : Bool :=
  top.links.any (fun l => l.touches x && rebuiltLink e r w cabled x l)

/-- The state of the device is replayed after the last of its rebuilt cables is
    wired and before its namespace is recorded. -/
def RestoredInOrder (w₀ : World) (h : List (Step × Effect)) (x : Device) : Prop :=
  baselined e top r w x = false ∧
    ∃ h₁ h₂, h = h₁ ++ (.configure x, .replay x) :: h₂ ∧
      replays e top env x (runPlan e top env w₀ h₁) = true ∧
      (∀ l ∈ top.links, l.touches x = true → rebuiltLink e r w cabled x l = true →
        (.wire l, .wire l) ∈ h₁) ∧
      ∀ j, (j, .recordNamespace x) ∉ h₁

/-- The engine puts the student's state back whatever the device owes. -/
def forcedRestore : Bool :=
  e.restoreStudentState && e.shouldForceStudentReset x && studentOwned top x

/-- The plan configures the device, and has a reason to replay it: its task is
    started, its state is lost, it owed a replay before, or the students' state
    is put back throughout. -/
def replayPlanned : Bool :=
  diffConfigure e top r w x &&
    (willStart e w x || lost e top r w x || w.pendingRestore x.id ||
      (env.probe x.id && w.marker x.id) || forcedRestore e top x)

/-- The device, or one at the other end of a local cable of it, was found in a new
    namespace. -/
def besideReplaced : Bool :=
  replaced e r w x || top.links.any (fun l =>
    l.touches x && !l.crossNode && replaced e r w (l.other x))

/-- The device owed a replay before: in memory, by a marker that is read, or because the
    students' state is put back throughout. -/
def owedReplay : Bool :=
  w.pendingRestore x.id || (env.probe x.id && w.marker x.id) || forcedRestore e top x

/-- The device is not as it is recorded or wanted: the mode, its container or sidecar or what
    is rendered for it has changed, or a probe found it different. -/
def outdated : Bool :=
  (e.renders && (modeDirty e w || specDirty e w x ||
    (previousRecord e top w x).all (configDiffers e x))) ||
    (e.probesSemantics && !specDirty e w x && !r.semanticOk x)

/-- What is found on the node provides for a device whose cables were built before. Unless it
    is beside a device found in a new namespace, there is a renderer if its task is started;
    if not, no task at the other end of a local cable is started either, or the device is
    outdated and owed a replay. -/
def Provided : Prop :=
  besideReplaced e top r w x = false → ∀ l ∈ top.links, l.touches x = true →
    cabled l.id = true →
    (willStart e w x = true → e.renders = true) ∧
    (willStart e w x = false → l.crossNode = false → willStart e w (l.other x) = true →
      outdated e top r w x = true ∧ owedReplay e top w env x = true)

instance : Decidable (Provided e top r w env cabled x) :=
  inferInstanceAs (Decidable (_ → ∀ l ∈ top.links, _))

end Rebuilt

section Restored

variable {e : Engine} {top : Topology} {r : Readings} {w : World} {env : RunEnv} {x : Device}

theorem specDirty_of_willStart (h : willStart e w x = true) : specDirty e w x = true := by
  simp only [specDirty, primaryRecreate, joinable, or_eq_true]
  unfold willStart at h
  cases hc : w.container x.id with
  | none => simp
  | some c =>
    simp only [hc, mustReplace, or_eq_true, and_eq_true, bne_iff_ne] at h
    rcases h with (h | ⟨-, h | h⟩) | h
    · simp [beq_iff_eq.mp h]
    · simp [h]
    · simp [h]
    · simp [h]

theorem not_willStart_of_clean (h : specDirty e w x = false) : willStart e w x = false := by
  by_contra hne
  rw [specDirty_of_willStart (by simpa using hne)] at h
  nomatch h

theorem create_of_willStart (h : willStart e w x = true) : diffCreate e top r w x = true := by
  simp [diffCreate, observeDevice, specDirty_of_willStart h]

/-- What making the container of a device does to it. -/
def madeView (e : Engine) (top : Topology) (env : RunEnv) (d : Device) (v : DeviceView) :
    DeviceView :=
  (Step.create d).effects.foldl (·.apply e top env d ·) v

theorem ensureControl_fields (v : DeviceView) :
    (v.ensureControl e top x).container = v.container ∧
      (v.ensureControl e top x).pendingRestore = v.pendingRestore ∧
      (v.ensureControl e top x).marker = v.marker ∧
      (v.ensureControl e top x).lostNamespaceState = v.lostNamespaceState := by
  unfold ensureControl
  split
  · split_ifs <;> exact ⟨rfl, rfl, rfl, rfl⟩
  · exact ⟨rfl, rfl, rfl, rfl⟩

theorem madeView_eq (v : DeviceView) :
    madeView e top env x v =
      { (((v.replace e env x).create e top x).start e top env x).ensureControl e top x with
        record := some (createdRecord e x) } := rfl

theorem container_of_not_willStart (h : willStart e w x = false) :
    ∃ c, w.container x.id = some c ∧ c.state.joinable = true ∧ c.state ≠ .absent ∧
      mustReplace e x c = false := by
  unfold willStart at h
  cases hc : w.container x.id with
  | none => simp [hc] at h
  | some c =>
    simp only [hc, or_eq_false_iff, not_eq_false', beq_eq_false_iff_ne] at h
    exact ⟨c, rfl, h.2, h.1.1, h.1.2⟩

variable {v : DeviceView}

theorem owes_pending (hr : restores e top x = true) :
    (v.owes e top env x).pendingRestore = true := by
  simp [owes, hr]

/-- The container of a device once it is made: the one that was there, if it can
    be kept. -/
def madeContainer (e : Engine) (top : Topology) (w : World) (d : Device) : Container :=
  match w.container d.id with
  | none => newContainer e top d
  | some c => if c.state == .absent || mustReplace e d c then newContainer e top d else c

/-- The container of a device once its task runs. -/
def startedContainer (e : Engine) (top : Topology) (w : World) (env : RunEnv) (d : Device) :
    Container :=
  let c := madeContainer e top w d
  if c.state.joinable then c else { c with state := .running, netns := env.born d.id }

theorem started_of_not_willStart (top : Topology) (env : RunEnv) (h : willStart e w x = false) :
    w.container x.id = some (startedContainer e top w env x) := by
  obtain ⟨c, hc, hjoin, habsent, hkeep⟩ := container_of_not_willStart h
  simp [hc, startedContainer, madeContainer, habsent, hkeep, hjoin]

theorem willStart_eq (top : Topology) :
    willStart e w x = !(madeContainer e top w x).state.joinable := by
  unfold willStart madeContainer
  cases w.container x.id with
  | none => rfl
  | some c =>
    by_cases hgone : (c.state == .absent || mustReplace e x c) = true
    · simp [hgone, newContainer, ContainerState.joinable]
    · simp [hgone]

section

variable (top env) (hv : v.container = w.container x.id)

include hv

theorem kept_of_not_willStart (h : willStart e w x = false) :
    v.replace e env x = v ∧ v.create e top x = v ∧ v.start e top env x = v := by
  obtain ⟨c, hc, hjoin, habsent, hkeep⟩ := container_of_not_willStart h
  refine ⟨?_, ?_, ?_⟩
  · simp [DeviceView.replace, hv, hc, hkeep]
  · simp [create, hv, hc, habsent]
  · simp [start, hv, hc, hjoin]

theorem made_of_not_willStart (h : willStart e w x = false) :
    (madeView e top env x v).pendingRestore = v.pendingRestore ∧
      (madeView e top env x v).marker = v.marker ∧
      (madeView e top env x v).lostNamespaceState = v.lostNamespaceState := by
  obtain ⟨hreplace, hcreate, hstart⟩ := kept_of_not_willStart top env hv h
  rw [madeView_eq, hreplace, hcreate, hstart]
  exact (ensureControl_fields v).2

theorem created_container :
    ((v.replace e env x).create e top x).container = some (madeContainer e top w x) := by
  fun_cases madeContainer with
  | case1 hc => simp [DeviceView.replace, DeviceView.create, hv, hc]
  | case2 c hc hgone =>
    by_cases hreplace : mustReplace e x c = true <;>
    simp_all [DeviceView.replace, DeviceView.create]
  | case3 c hc hkeep => simp_all [DeviceView.replace, DeviceView.create]

theorem started_container :
    (((v.replace e env x).create e top x).start e top env x).container =
      some (startedContainer e top w env x) := by
  have hc := created_container (e := e) top env hv
  unfold startedContainer
  by_cases hj : (madeContainer e top w x).state.joinable = true
  · simp [start, hc, hj]
  · simp only [start, hc, hj, owes, false_eq_true, if_false]
    split_ifs <;> rfl

end

theorem made_of_willStart (hv : v.container = w.container x.id) (hr : restores e top x = true)
    (h : willStart e w x = true) : (madeView e top env x v).pendingRestore = true := by
  have hc := created_container (e := e) top env hv
  rw [willStart_eq top, not_eq_true'] at h
  rw [madeView_eq]
  change (((_ : DeviceView).start e top env x).ensureControl e top x).pendingRestore = true
  rw [(ensureControl_fields _).2.1]
  simp only [start, hc, h, false_eq_true, if_false]
  exact owes_pending hr

theorem deviceEffects_at_replay {h₁ h₂ : List (Step × Effect)}
    (hist : History (dirtyPlan e top r w) (h₁ ++ (.configure x, .replay x) :: h₂)) :
    deviceEffects h₁ x =
      (if diffCreate e top r w x then (Step.create x).effects else []) ++
        [.configure x, .owe x] := by
  have hcut : History (dirtyPlan e top r w) h₁ := hist.of_append
  obtain ⟨⟨rest, hnext⟩, hneeds⟩ := hist.at
  have hplan := configure_mem_planSteps.mp (hist.mem_jobs (x := (.configure x, .replay x))
    (by simp))
  -- The replay is the third effect of the step, and no other.
  have hsplit : [.configure x, .owe x] ++ .replay x :: [.recordNamespace x, .markConfigured x] =
      performed h₁ (.configure x) ++ Effect.replay x :: rest := hnext
  have hconf : [.configure x, .owe x] = performed h₁ (.configure x) :=
    ((append_cons_inj_of_notMem (by simp) (by simp)).mp hsplit).1
  have hready : performed h₁ (.ready x) = [] :=
    performed_nil_of_unfinished hcut (n := .configure x) (by simp [Step.needs, hplan.2])
      (by rw [← hconf]; simp [Step.effects])
  have hcreate : performed h₁ (.create x) =
      if diffCreate e top r w x then (Step.create x).effects else [] := by
    by_cases hc : diffCreate e top r w x = true
    · rw [if_pos hc]
      exact hneeds (.create x) (by simp [dirtyPlan, Step.needs, hc])
    · rw [if_neg hc]
      exact hcut.performed_nil fun hj => hc (create_mem_planSteps.mp hj).2
  rw [deviceEffects, ← hconf, hready, hcreate, append_nil]

/-- When the replay of a device takes place. -/
theorem replays_at {h₁ h₂ : List (Step × Effect)} (hx : x ∈ top.devicesOnNode e.node)
    (hr : restores e top x = true)
    (hist : History (dirtyPlan e top r w) (h₁ ++ (.configure x, .replay x) :: h₂)) :
    replays e top env x (runPlan e top env (observeNode e top r w) h₁) =
      (willStart e w x || lost e top r w x || w.pendingRestore x.id ||
        (env.probe x.id && w.marker x.id) || forcedRestore e top x) := by
  have hlost : ((observeNode e top r w).view x.id).lostNamespaceState = lost e top r w x :=
    flagOf_eq hx
  rw [replays_eq, view_run hist.of_append hx, deviceEffects_at_replay hist, foldl_append]
  -- The device as its own create step left it.
  generalize hv : foldl _ ((observeNode e top r w).view x.id) _ = v
  have hmade : (willStart e w x = true → v.pendingRestore = true) ∧
      (willStart e w x = false → v.pendingRestore = w.pendingRestore x.id ∧
        v.marker = w.marker x.id ∧ v.lostNamespaceState = lost e top r w x) := by
    by_cases hc : diffCreate e top r w x = true
    · rw [if_pos hc] at hv
      subst hv
      refine ⟨fun hs => made_of_willStart rfl hr hs, fun hs => ?_⟩
      obtain ⟨hp, hm, hl⟩ := made_of_not_willStart top env
        (v := (observeNode e top r w).view x.id) rfl hs
      exact ⟨hp, hm, hl.trans hlost⟩
    · rw [if_neg hc] at hv
      subst hv
      exact ⟨fun hs => absurd (create_of_willStart hs) hc, fun _ => ⟨rfl, rfl, hlost⟩⟩
  simp only [foldl_cons, foldl_nil, DeviceView.apply, DeviceView.replays, hr,
    Bool.true_and]
  have hforced : (e.restoreStudentState && e.shouldForceStudentReset x && studentOwned top x) =
      forcedRestore e top x := rfl
  rw [hforced]
  cases hs : willStart e w x with
  | true =>
    have hp := hmade.1 hs
    by_cases hl : v.lostNamespaceState = true
    · rw [if_pos hl, owes_pending hr]
      simp
    · rw [if_neg hl, hp]
      simp
  | false =>
    obtain ⟨hp, hm, hl⟩ := hmade.2 hs
    rw [hl]
    cases lost e top r w x with
    | true => simp [owes_pending hr]
    | false => simp [hp, hm, Bool.or_comm]

variable {cabled : String → Bool}

theorem wire_of_rebuilt {l : Link} (hx : x ∈ top.devicesOnNode e.node) (hl : l ∈ top.links)
    (ht : l.touches x = true)
    (hb : rebuiltLink e r w cabled x l = true) : diffWire e top r w l = true := by
  -- a renewed device has a create step
  have hcreate : ∀ y, renewed e r w y = true → diffCreate e top r w y = true := by
    intro y hy
    rcases or_eq_true_iff.mp hy with hy | hy
    · exact create_of_willStart hy
    · simp [diffCreate, hy]
  simp only [rebuiltLink, and_eq_true, or_eq_true, not_eq_true'] at hb
  obtain ⟨-, hrenewed⟩ := hb
  obtain ⟨hxdev, hxnode⟩ := Topology.mem_devicesOnNode.mp hx
  have hend : l.onNode e.node = true ∧ endpointCreate e top r w l = true := by
    simp only [endpointCreate, Link.onNode, any_cons, any_nil, Bool.or_false,
      or_eq_true, and_eq_true, beq_iff_eq]
    simp only [Link.touches, or_eq_true, beq_iff_eq] at ht
    simp only [Link.other, Link.crossNode, bne_eq_false_iff_eq] at hrenewed
    -- the device is one end of the link or the other
    by_cases ha : l.a.id = x.id
    · obtain rfl := Topology.eq_of_id (top.endpoints l hl).1 hxdev ha
      refine ⟨.inl hxnode, ?_⟩
      rw [if_pos rfl] at hrenewed
      rcases hrenewed with hown | ⟨hlocal, hother⟩
      · exact .inl ⟨hxnode, hcreate _ hown⟩
      · exact .inr ⟨hlocal ▸ hxnode, hcreate _ hother⟩
    · obtain rfl := Topology.eq_of_id (top.endpoints l hl).2 hxdev (ht.resolve_left ha)
      refine ⟨.inr hxnode, ?_⟩
      rw [if_neg ha] at hrenewed
      rcases hrenewed with hown | ⟨hlocal, hother⟩
      · exact .inr ⟨hxnode, hcreate _ hown⟩
      · exact .inl ⟨hlocal ▸ hxnode, hcreate _ hother⟩
  simp [diffWire, hend.1, hend.2]

/-- A device is restored if its replay was planned. -/
theorem restored_iff {h : List (Step × Effect)} (hx : x ∈ top.devicesOnNode e.node)
    (hr : restores e top x = true) (hc : Complete (dirtyPlan e top r w) h) :
    RestoredInOrder e top r w env cabled (observeNode e top r w) h x ↔
      replayPlanned e top r w env x = true := by
  unfold replayPlanned
  rw [and_eq_true]
  constructor
  · rintro ⟨-, h₁, h₂, rfl, hreplays, -⟩
    rw [replays_at hx hr hc.1] at hreplays
    exact ⟨(configure_mem_planSteps.mp (hc.1.mem_jobs (x := (.configure x, .replay x))
      (by simp))).2, hreplays⟩
  · rintro ⟨hconf, hreason⟩
    have hjob : Step.configure x ∈ (dirtyPlan e top r w).jobs :=
      configure_mem_planSteps.mpr ⟨hx, hconf⟩
    obtain ⟨h₁, h₂, rfl⟩ := hc.split_at hjob (e := Effect.replay x)
      (by simp [dirtyPlan, Step.effects])
    refine ⟨by simp [baselined, clean, hconf], h₁, h₂, rfl, ?_, fun l hl ht hb => ?_,
      fun j hmem => ?_⟩
    · rw [replays_at hx hr hc.1]
      exact hreason
    · have hneed : Step.wire l ∈ (dirtyPlan e top r w).needs (.configure x) := by
        simp only [dirtyPlan, Step.needs, mem_append, mem_map, mem_filter,
          and_eq_true]
        exact .inr ⟨l, ⟨hl, ht, wire_of_rebuilt hx hl ht hb⟩, rfl⟩
      have hdone := hc.1.at.2 _ hneed
      refine mem_performed.mp ?_
      rw [hdone]
      simp [dirtyPlan, Step.effects]
    · -- The namespace is recorded by the same step, after the replay.
      have hown := (step_of_device (d := x) (hc.1.mem_effects (x := (j, .recordNamespace x))
        (by simp [hmem]))).mp rfl
      have hall : Effect.recordNamespace x ∈ deviceEffects h₁ x := by
        simp only [deviceEffects, mem_append, mem_performed]
        rcases hown with rfl | rfl | rfl
        · exact .inl (.inl hmem)
        · exact .inl (.inr hmem)
        · exact .inr hmem
      rw [deviceEffects_at_replay hc.1] at hall
      split_ifs at hall <;> simp [Step.effects] at hall

/-! ### What the node provides for -/

/-- The other end of the other end is the device itself. -/
theorem other_other {l : Link} (h : l.touches x = true) :
    l.touches (l.other x) = true ∧ (l.other (l.other x)).id = x.id := by
  simp only [Link.touches, or_eq_true, beq_iff_eq] at h ⊢
  by_cases ha : l.a.id = x.id
  · have hother : l.other x = l.b := if_pos ha
    rw [hother, Link.other]
    split_ifs with hab
    · exact ⟨.inr rfl, hab.symm.trans ha⟩
    · exact ⟨.inr rfl, ha⟩
  · have hother : l.other x = l.a := if_neg ha
    rw [hother, Link.other, if_pos rfl]
    exact ⟨.inl rfl, h.resolve_left ha⟩

theorem other_mem_devicesOnNode {l : Link} (hx : x ∈ top.devicesOnNode e.node) (hl : l ∈ top.links)
    (ht : l.touches x = true) (hlocal : l.crossNode = false) :
    l.other x ∈ top.devicesOnNode e.node := by
  obtain ⟨hxdev, hxnode⟩ := Topology.mem_devicesOnNode.mp hx
  obtain ⟨ha, hb⟩ := top.endpoints l hl
  have hsame : l.a.node = l.b.node := by simpa [Link.crossNode] using hlocal
  simp only [Link.touches, or_eq_true, beq_iff_eq] at ht
  rw [Topology.mem_devicesOnNode, Link.other]
  split_ifs with hax
  · rw [← Topology.eq_of_id ha hxdev hax] at hxnode
    exact ⟨hb, hsame.symm.trans hxnode⟩
  · rw [← Topology.eq_of_id hb hxdev (ht.resolve_left hax)] at hxnode
    exact ⟨ha, hsame.trans hxnode⟩

/-- The state of a device is taken to be lost where it is found beside a new namespace. -/
theorem lost_eq_besideReplaced (hx : x ∈ top.devicesOnNode e.node) :
    lost e top r w x = besideReplaced e top r w x := by
  rw [lost, besideReplaced]
  congr 1
  rw [Bool.eq_iff_iff]
  simp only [any_eq_true, and_eq_true, not_eq_true', localNeighbours, beq_iff_eq]
  constructor
  · rintro ⟨y, hy, hnew, l, hl, ⟨⟨ht, hlocal⟩, hid⟩, -⟩
    obtain ⟨htouch, hback⟩ := other_other ht
    -- only the identity of a device counts at the ends of a cable
    have hsame : l.touches x = l.touches (l.other y) ∧ l.other x = l.other (l.other y) := by
      generalize l.other y = z at hid
      exact ⟨by rw [Link.touches, Link.touches, hid], by rw [Link.other, Link.other, hid]⟩
    refine ⟨l, hl, ⟨hsame.1 ▸ htouch, hlocal⟩, ?_⟩
    have hxmem := other_mem_devicesOnNode hx hl (hsame.1 ▸ htouch) hlocal
    rw [Topology.eq_of_id (Topology.mem_devicesOnNode.mp hxmem).1
      (Topology.mem_devicesOnNode.mp hy).1 (hsame.2 ▸ hback)]
    exact hnew
  · rintro ⟨l, hl, ⟨ht, hlocal⟩, hnew⟩
    obtain ⟨htouch, hback⟩ := other_other ht
    have hy := other_mem_devicesOnNode hx hl ht hlocal
    exact ⟨l.other x, hy, hnew, l, hl, ⟨⟨htouch, hlocal⟩, hback⟩,
      (Topology.mem_devicesOnNode.mp (other_mem_devicesOnNode hy hl htouch hlocal)).2⟩

/-- Without a new namespace beside it, a device is configured when it is outdated. -/
theorem replayPlanned_of_apart (h : lost e top r w x = false) :
    replayPlanned e top r w env x =
      (outdated e top r w x && (willStart e w x || owedReplay e top w env x)) := by
  have hconfigure : diffConfigure e top r w x = outdated e top r w x := by
    simp only [diffConfigure, semanticDirty, observeDevice, observedConfigure, outdated, h,
      Bool.or_false, Bool.not_false, Bool.and_true]
    cases previousRecord e top w x <;> rfl
  rw [replayPlanned, hconfigure, h, owedReplay]
  simp only [Bool.or_false, Bool.or_assoc]

/-- The plan replays a device with a rebuilt interface exactly if it is provided for. -/
theorem replayPlanned_iff_provided (hx : x ∈ top.devicesOnNode e.node) :
    (hasRebuilt e top r w cabled x = true → replayPlanned e top r w env x = true) ↔
      Provided e top r w env cabled x := by
  rw [Provided, ← lost_eq_besideReplaced hx]
  cases hlost : lost e top r w x with
  | true =>
    have hplanned : replayPlanned e top r w env x = true := by
      simp [replayPlanned, diffConfigure, hlost]
    simp [hplanned]
  | false =>
    -- nothing beside the device is in a new namespace, so only started tasks count
    have hlost' := lost_eq_besideReplaced hx ▸ hlost
    simp only [besideReplaced, or_eq_false_iff, any_eq_false, and_eq_true, not_eq_true'] at hlost'
    have hown : renewed e r w x = willStart e w x := by simp [renewed, hlost'.1]
    have hother : ∀ l ∈ top.links, l.touches x = true → l.crossNode = false →
        renewed e r w (l.other x) = willStart e w (l.other x) := by
      intro l hl ht hlocal
      have hold : replaced e r w (l.other x) = false := by
        rw [← Bool.not_eq_true]
        exact fun hnew => hlost'.2 l hl ⟨⟨ht, hlocal⟩, hnew⟩
      simp [renewed, hold]
    have hrebuilt : hasRebuilt e top r w cabled x = true ↔ ∃ l ∈ top.links, l.touches x = true ∧
        cabled l.id = true ∧ (willStart e w x = true ∨
          l.crossNode = false ∧ willStart e w (l.other x) = true) := by
      simp only [hasRebuilt, rebuiltLink, any_eq_true, and_eq_true, or_eq_true, not_eq_true', hown]
      refine exists_congr fun l => and_congr_right fun hl => and_congr_right fun ht =>
        and_congr_right fun _ => or_congr_right (and_congr_right fun hlocal => ?_)
      rw [hother l hl ht hlocal]
    rw [hrebuilt, replayPlanned_of_apart hlost]
    cases hstart : willStart e w x with
    | true =>
      have houtdated : outdated e top r w x = e.renders := by
        simp [outdated, specDirty_of_willStart hstart]
      rw [houtdated, Bool.true_or, Bool.and_true]
      constructor
      · exact fun h _ l hl ht hc => ⟨fun _ => h ⟨l, hl, ht, hc, .inl rfl⟩, by simp⟩
      · rintro h ⟨l, hl, ht, hc, -⟩
        exact (h rfl l hl ht hc).1 rfl
    | false =>
      rw [Bool.false_or, and_eq_true]
      constructor
      · exact fun h _ l hl ht hc =>
          ⟨by simp, fun _ hlocal hother => h ⟨l, hl, ht, hc, .inr ⟨hlocal, hother⟩⟩⟩
      · rintro h ⟨l, hl, ht, hc, hstarted⟩
        obtain ⟨hlocal, hother⟩ := hstarted.resolve_left (by simp)
        exact (h rfl l hl ht hc).2 rfl hlocal hother

/-- In a platform deployment that runs to its end, every student device with a
    rebuilt interface is restored in order exactly when what is found on the node provides
    for each of them: a task that is started at the other end of a cable counts only where a
    new namespace was found there. -/
theorem rebuilt_restored_iff {p : Schedule Step Effect} {w₀ : World} {h : List (Step × Effect)}
    (hplatform : e.writesReference = false) (hstore : e.hasStore = true)
    (hbuild : buildContext e top r w = some (p, w₀)) (hrun : Complete p h)
    (cabled : String → Bool) :
    (∀ x ∈ top.devicesOnNode e.node, studentOwned top x = true →
        hasRebuilt e top r w cabled x = true → RestoredInOrder e top r w env cabled w₀ h x) ↔
      ∀ x ∈ top.devicesOnNode e.node, studentOwned top x = true →
        Provided e top r w env cabled x := by
  refine forall₃_congr fun x hx hstudent => ?_
  rw [← replayPlanned_iff_provided hx]
  refine forall_congr' fun _ => ?_
  obtain ⟨rfl, rfl⟩ := buildContext_of_mem hbuild hx
  exact restored_iff hx (by simp [restores, hstore, hstudent, hplatform]) hrun

end Restored

/-- An engine for one node that keeps saved state. -/
def nodeEngine : Engine :=
  { node := "n1", modeKey := "platform", contract := "v1", renders := true
    hasReady := fun _ => false, recoveryCompatibility := false, observationReadOnly := false
    supportsNetnsIdentity := true, hasStore := true, writesReference := false
    restoreStudentState := false, shouldForceStudentReset := fun _ => false
    probesSemantics := false, forceOverlayReconcile := false
    desired := fun _ =>
      { specHash := "spec", controlHash := none, configHash := "config", fileHash := "files"
        commandHash := "commands", readyHash := "", configHash_ne := by decide }
    wireHash := fun _ => "wire"
    retainLegacyOverlays := false, vlan := fun _ => 2, peerUnderlay := fun _ => "10.0.0.2"
    trunk := fun _ => { bridge := "twbp", vxlan := "twvp", mtu := 1400, port := 4789 } }

/-- A container of the wanted specification in the given namespace. -/
def runningIn (inode : Nat) : Container :=
  { state := .running, specLabel := "spec", contractLabel := "v1", hashLabel := "h"
    netns := ⟨1, inode⟩ }

/-- The node after `nodeEngine` has deployed the pair: the first router in
    namespace 1 and the second in namespace 2. -/
def deployedPair : World :=
  let record : Record :=
    { mode := "platform"
      devices := fun _ => some
        { specHash := "spec", configHash := "config", fileHash := "files"
          commandHash := "commands", readyHash := "" }
      links := fun _ => some "wire"
      namespaces := fun id => if id = "as1/R1" then some ⟨1, 1⟩ else some ⟨1, 2⟩ }
  { container := fun id => some (if id = "as1/R1" then runningIn 1 else runningIn 2)
    control := fun _ => none, overlay := ⟨[], []⟩, disk := record, tracker := record
    marker := fun _ => false, pendingRestore := fun _ => false
    lostNamespaceState := fun _ => false, unprovenNamespace := fun _ => false
    createdContainers := fun _ => false }

/-- Everything can be read, and everything that is probed is as it should be. -/
def allReadable : Readings :=
  { readable := fun _ => true, controlReadable := fun _ => true, semanticOk := fun _ => true
    proven := fun _ => true }

/-- Tasks are started into namespace 9, and the markers work. -/
def quietRun : RunEnv :=
  { born := fun _ => ⟨1, 9⟩, marks := fun _ => true, probe := fun _ => true
    captureFindsLost := fun _ => false }

/-- The first router is found in a new namespace: both routers are restored. -/
theorem restored_beside_new_namespace :
    let w := deployedPair.setContainer "as1/R1" (some (runningIn 3))
    ∃ p w₀ h, buildContext nodeEngine cabledPair allReadable w = some (p, w₀) ∧
      Complete p h ∧ ∀ x ∈ cabledPair.devicesOnNode nodeEngine.node,
        hasRebuilt nodeEngine cabledPair allReadable w (fun _ => true) x = true ∧
        RestoredInOrder nodeEngine cabledPair allReadable w quietRun (fun _ => true) w₀ h x := by
  intro w
  have hall : ∀ x ∈ cabledPair.devicesOnNode nodeEngine.node, studentOwned cabledPair x = true ∧
      hasRebuilt nodeEngine cabledPair allReadable w (fun _ => true) x = true := by
    decide
  obtain ⟨h, hrun⟩ := dirtyPlan_runs nodeEngine cabledPair allReadable w
  have hbuild : buildContext nodeEngine cabledPair allReadable w =
      some (dirtyPlan nodeEngine cabledPair allReadable w,
        observeNode nodeEngine cabledPair allReadable w) := by
    rfl
  refine ⟨_, _, h, hbuild, hrun, fun x hx => ⟨(hall x hx).2, ?_⟩⟩
  exact (rebuilt_restored_iff rfl rfl hbuild hrun (fun _ => true)).mpr (by decide) x hx
    (hall x hx).1 (hall x hx).2

/-- The first router is made again from a new specification. The cable goes with
    its namespace and is built again, and with it the interface of the second
    router, which stays up: the addresses on it are not put back. -/
theorem recreated_neighbour_not_restored :
    let w := deployedPair.setContainer "as1/R1" (some { runningIn 1 with specLabel := "old" })
    ∃ p w₀ h, buildContext nodeEngine cabledPair allReadable w = some (p, w₀) ∧
      Complete p h ∧ ∃ x ∈ cabledPair.devicesOnNode nodeEngine.node,
        studentOwned cabledPair x = true ∧
        hasRebuilt nodeEngine cabledPair allReadable w (fun _ => true) x = true ∧
        ¬ RestoredInOrder nodeEngine cabledPair allReadable w quietRun (fun _ => true) w₀ h x := by
  intro w
  obtain ⟨h, hrun⟩ := dirtyPlan_runs nodeEngine cabledPair allReadable w
  have hfail : ∃ x ∈ cabledPair.devicesOnNode nodeEngine.node, studentOwned cabledPair x = true ∧
      hasRebuilt nodeEngine cabledPair allReadable w (fun _ => true) x = true ∧
      restores nodeEngine cabledPair x = true ∧
      replayPlanned nodeEngine cabledPair allReadable w quietRun x = false := by
    decide
  obtain ⟨x, hx, hstudent, hrebuilt, hr, hplan⟩ := hfail
  refine ⟨_, _, h, rfl, hrun, x, hx, hstudent, hrebuilt, fun hrestored => ?_⟩
  rw [restored_iff hx hr hrun, hplan] at hrestored
  exact absurd hrestored (by decide)

end Deploy

end Twinet
