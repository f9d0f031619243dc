import Mathlib.Data.Fintype.Basic
import Twinet.Deploy.SavedState

/-!
# What a Capture May Replace

The guard of a capture looks at three things at three moments: the recorded
namespace, the identity of the one the device is in, and the marker. What they
establish together holds as long as nobody records a namespace the saved state
is not in, nobody takes the marker away before it is, interfaces are deleted
behind the marker only, and no replay falls into the middle of a capture.

The argument keeps one thing about every moment at which the device looks
right. When it is in a namespace some record names and carries no marker, or
when a pass is sure of it, the saved state belongs to the namespace as it is,
and so does every reading that has not been stored yet.

## Main definitions

* `Careful`: The condition on one step.
* `Sound`: The device looks right.
* `Belongs`: All saved state was captured in a namespace or replayed into it.
* `Replaying`: What holds of a replay under way.
* `Kept`: The invariant.

## Theorems

* `Kept.setEngine`: What an engine may come to know.
* `kept_command`, `kept_restored`: The commands of a replay keep the invariant.
* `kept_step`: A careful step keeps the invariant, and replaces only what the
  reading continues.
* `replaced_continues`: So does every careful run.
-/

namespace Twinet

namespace Deploy

open DeviceState Option Bool Function Nat

section Conditions

variable {ι : Type} (s : DeviceState ι)

/-- Some record, on disk or in the hands of an engine, names the namespace the
    device is in. -/
def Trusted : Prop :=
  s.baseline = some s.netns ∨ ∃ i, (s.engine i).tracker = some (some s.netns)

/-- No capture is between its reading and its store. -/
def Quiet : Prop := ∀ i k, (s.engine i).readings k = none

/-- No replay is between its reading of the saved state and its end. -/
def Unfetched : Prop := ∀ i, (s.engine i).fetched = none

/-- A pass is sure of the device: since the replay that it has done began, or since
    it found the device unmarked where the record says it is, there was no new
    namespace and no interface was deleted. -/
def Assured (i : ι) : Prop := (s.engine i).assured = some (s.netns, s.cuts)

/-- The condition on one step. -/
def Careful : Action ι → Prop
  | .recreate _ => s.marker = false ∨ Quiet s
  | .unplug _ => s.marker = true ∨ ¬ Trusted s
  | .observe _ _ modelled => s.baseline = none → modelled = false
  | .fetch _ => Quiet s
  | .clearRestorePending i _ => s.marker = true → Assured s i
  | .recordDeviceNamespace i _ _ _ => s.marker = true ∨ Assured s i
  | .capture _ _ => Unfetched s
  | .settleCaptureSafety i _ modelled => (s.engine i).tracker.getD none = none →
      modelled = false ∧ (s.engine i).finding.createdThisPass = false
  | .storableSnapshots _ answers => s.marker = true → answers = true
  | _ => True

section Decide

variable [Fintype ι]

instance : Decidable (Trusted s) := inferInstanceAs (Decidable (_ ∨ ∃ _, _))

instance : Decidable (Unfetched s) :=
  decidable_of_iff (∀ i, (s.engine i).fetched.isNone = true) (by simp [Unfetched])

instance : Decidable (Quiet s) :=
  decidable_of_iff (∀ i, ∀ k ∈ allKinds, (s.engine i).readings k = none)
    ⟨fun h i k => h i k (mem_allKinds k), fun h i k _ => h i k⟩

instance (i : ι) : Decidable (Assured s i) := inferInstanceAs (Decidable (_ = _))

instance : (a : Action ι) → Decidable (Careful s a)
  | .recreate _ => inferInstanceAs (Decidable (_ ∨ Quiet s))
  | .unplug _ => inferInstanceAs (Decidable (_ ∨ ¬ Trusted s))
  | .observe _ _ _ => inferInstanceAs (Decidable (_ → _))
  | .fetch _ => inferInstanceAs (Decidable (Quiet s))
  | .clearRestorePending i _ => inferInstanceAs (Decidable (_ → Assured s i))
  | .recordDeviceNamespace i _ _ _ => inferInstanceAs (Decidable (_ ∨ Assured s i))
  | .capture _ _ => inferInstanceAs (Decidable (Unfetched s))
  | .settleCaptureSafety _ _ _ => inferInstanceAs (Decidable (_ → _ ∧ _))
  | .storableSnapshots _ _ => inferInstanceAs (Decidable (_ → _))
  | .edit _ _ | .stop | .restart | .forget _ | .restoreIfNeeded _ _ => isTrue trivial
  | .holdNamespaceState _ _ _ | .restore _ _ | .saveRecord _ | .loadObservation _ _ =>
    isTrue trivial
  | .put _ _ | .finish _ => isTrue trivial

end Decide

/-- The device looks right. -/
def Sound : Prop := (Trusted s ∧ s.marker = false) ∨ ∃ i, Assured s i

/-- All saved state belongs to a namespace at a number of deletions: it was
    captured there, or replayed into it. -/
def Belongs (n c : Nat) : Prop :=
  ∀ k saved, s.store k = some saved →
    (saved.netns = n ∧ saved.cuts = c) ∨ (saved.number, n) ∈ s.replays

/-- What holds of a replay under way. It has what is saved and nobody captures. As long as
    the device is where it was when the replay began, each kind is still to be cleared, or
    was cleared here and has commands left or is replayed. -/
def Replaying (p : Replay) : Prop :=
  p.saved = s.store ∧ Quiet s ∧ p.since.1 ≤ s.netns ∧ p.since.2 ≤ s.cuts ∧
    (p.since.1 = s.netns → ∀ k saved, namespaceBackedKind k = true → s.store k = some saved →
      .reset k ∈ p.left ∨ p.cleared k = some s.netns ∧
        ((∃ c ∈ p.left, c.kind = k) ∨ (saved.number, s.netns) ∈ s.replays))

/-- The guard has let the readings of the engine through, or will. -/
def Cleared (i : ι) : Prop :=
  (s.engine i).phase = .storing ∨
    ((s.engine i).phase = .checked ∧ (s.engine i).finding.lostNamespaceState = false ∧
      (s.engine i).finding.namespaceUnproven = false ∧ s.marker = false)

/-- The invariant. -/
structure Kept : Prop where
  baseline_le : ∀ n, s.baseline = some n → n ≤ s.netns
  tracker_le : ∀ i n, (s.engine i).tracker = some (some n) → n ≤ s.netns
  assured_le : ∀ i n c, (s.engine i).assured = some (n, c) → n ≤ s.netns ∧ c ≤ s.cuts
  belongs : Sound s → Belongs s s.netns s.cuts
  current : Sound s → ∀ i k r, (s.engine i).readings k = some r →
    r.netns = s.netns ∧ r.cuts = s.cuts
  replays : ∀ i k r, (s.engine i).readings k = some r → r.replays = s.replays
  fetched : ∀ i p, (s.engine i).fetched = some p → Replaying s p
  cleared : ∀ i k r, Cleared s i → (s.engine i).readings k = some r → Belongs s r.netns r.cuts
  agree : ∀ i j k l r q, Cleared s i → Cleared s j → (s.engine i).readings k = some r →
    (s.engine j).readings l = some q → r.netns = q.netns ∧ r.cuts = q.cuts

end Conditions

variable {ι : Type} {s : DeviceState ι} {i j : ι} {k l : Kind} {r q : Reading}

theorem kept_unused : Kept (unused : DeviceState ι) := by
  constructor <;> simp [unused, EngineState.fresh, Cleared, Belongs]

variable {n : Nat} {answers : Bool}

theorem netnsIdentityOf_eq (hn : s.netnsIdentityOf answers = some n) : n = s.netns := by
  unfold netnsIdentityOf at hn
  split_ifs at hn
  exact (some.inj hn).symm

theorem prove_unmodelled (answers : Bool) : s.proveNamespaceBaseline answers false = none := by
  simp [proveNamespaceBaseline]

section

variable (h : Kept s)

include h

theorem Kept.vouched (hi : Cleared s i ∨ Sound s)
    (hr : (s.engine i).readings k = some r) : Belongs s r.netns r.cuts := by
  rcases hi with hi | hi
  · exact h.cleared i k r hi hr
  · obtain ⟨hn, hc⟩ := h.current hi i k r hr
    rw [hn, hc]
    exact h.belongs hi

theorem Kept.vouched_agree (hi : Cleared s i ∨ Sound s) (hj : Cleared s j ∨ Sound s)
    (hr : (s.engine i).readings k = some r) (hq : (s.engine j).readings l = some q) :
    r.netns = q.netns ∧ r.cuts = q.cuts := by
  have hsound : Sound s → r.netns = q.netns ∧ r.cuts = q.cuts := by
    intro hs
    obtain ⟨hrn, hrc⟩ := h.current hs i k r hr
    obtain ⟨hqn, hqc⟩ := h.current hs j l q hq
    exact ⟨hrn.trans hqn.symm, hrc.trans hqc.symm⟩
  rcases hi with hi | hi
  · rcases hj with hj | hj
    · exact h.agree i j k l r q hi hj hr hq
    · exact hsound hj
  · exact hsound hi

/-! ### The device -/

variable {marker : Bool}

theorem Kept.renew (hmarker : marker = false → s.marker = false ∨ Quiet s) :
    Kept (s.renew marker) := by
  have hsound : ¬ Sound (s.renew marker) := by
    rintro (⟨hb | ⟨i, hi⟩, -⟩ | ⟨i, hi⟩)
    · have hle := h.baseline_le _ hb
      exact absurd hle (by simp [DeviceState.renew])
    · have hle := h.tracker_le i _ hi
      exact absurd hle (by simp [DeviceState.renew])
    · have hle := (h.assured_le i _ _ hi).1
      exact absurd hle (by simp [DeviceState.renew])
  -- With a reading about, the marker is as it was, so nobody is let through anew.
  have hcleared : ∀ i k r, Cleared (s.renew marker) i → (s.engine i).readings k = some r →
      Cleared s i := by
    intro i k r hi hr
    rcases hi with hi | ⟨hphase, hlost, hproven, hdown⟩
    · exact .inl hi
    · rcases hmarker hdown with hwas | hquiet
      · exact .inr ⟨hphase, hlost, hproven, hwas⟩
      · exact absurd hr (by simp [hquiet i k])
  exact
    { h with
      baseline_le := fun n hn => le_succ_of_le (h.baseline_le n hn)
      tracker_le := fun i n hn => le_succ_of_le (h.tracker_le i n hn)
      assured_le := fun i n c hn =>
        ⟨le_succ_of_le (h.assured_le i n c hn).1, (h.assured_le i n c hn).2⟩
      fetched := fun i p hp => by
        obtain ⟨hsaved, hquiet, hn, hc, -⟩ := h.fetched i p hp
        exact ⟨hsaved, hquiet, le_succ_of_le hn, hc, fun hnow => absurd (hnow ▸ hn)
          (by simp [DeviceState.renew])⟩
      belongs := fun hs => absurd hs hsound
      current := fun hs => absurd hs hsound
      cleared := fun i k r hi hr => h.cleared i k r (hcleared i k r hi hr) hr
      agree := fun i j k l r q hi hj hr hq =>
        h.agree i j k l r q (hcleared i k r hi hr) (hcleared j l q hj hq) hr hq }

theorem Kept.unplug (left : Kind → List Fact)
    (hcare : s.marker = true ∨ ¬ Trusted s) :
    Kept { s with cuts := s.cuts + 1, live := left } := by
  have hsound : ¬ Sound { s with cuts := s.cuts + 1, live := left } := by
    rintro (⟨htrust, hdown⟩ | ⟨i, hi⟩)
    · rcases hcare with hup | hnot
      · nomatch hup.symm.trans hdown
      · exact hnot htrust
    · have hle := (h.assured_le i _ _ hi).2
      exact absurd hle (by simp)
  exact
    { h with
      assured_le := fun i n c hn =>
        ⟨(h.assured_le i n c hn).1, le_succ_of_le (h.assured_le i n c hn).2⟩
      fetched := fun i p hp => by
        obtain ⟨hsaved, hquiet, hn, hc, hkinds⟩ := h.fetched i p hp
        exact ⟨hsaved, hquiet, hn, le_succ_of_le hc, hkinds⟩
      belongs := fun hs => absurd hs hsound
      current := fun hs => absurd hs hsound }

theorem Kept.setMarker (hmarker : marker = false → s.marker = false ∨ Sound s) :
    Kept { s with marker := marker } := by
  have hsound : Sound { s with marker := marker } → Sound s := by
    rintro (⟨htrust, hdown⟩ | hassured)
    · rcases hmarker hdown with hwas | hs
      · exact .inl ⟨htrust, hwas⟩
      · exact hs
    · exact .inr hassured
  have hcleared : ∀ i, Cleared { s with marker := marker } i → Cleared s i ∨ Sound s := by
    rintro i (hi | ⟨hphase, hlost, hproven, hdown⟩)
    · exact .inl (.inl hi)
    · exact (hmarker hdown).imp_left fun hwas => .inr ⟨hphase, hlost, hproven, hwas⟩
  exact
    { h with
      belongs := fun hs => h.belongs (hsound hs)
      current := fun hs => h.current (hsound hs)
      cleared := fun i k r hi hr => h.vouched (hcleared i hi) hr
      agree := fun i j k l r q hi hj hr hq =>
        h.vouched_agree (hcleared i hi) (hcleared j hj) hr hq }

theorem Kept.setBaseline {baseline : Option Nat}
    (hle : ∀ n, baseline = some n → n ≤ s.netns)
    (hnow : baseline = some s.netns → s.marker = true ∨ Trusted s ∨ Sound s) :
    Kept { s with baseline := baseline } := by
  have hsound : Sound { s with baseline := baseline } → Sound s := by
    rintro (⟨hb | htracker, hdown⟩ | hassured)
    · rcases hnow hb with hup | htrust | hs
      · nomatch hup.symm.trans hdown
      · exact .inl ⟨htrust, hdown⟩
      · exact hs
    · exact .inl ⟨.inr htracker, hdown⟩
    · exact .inr hassured
  exact
    { h with
      baseline_le := hle
      belongs := fun hs => h.belongs (hsound hs)
      current := fun hs => h.current (hsound hs) }

theorem Kept.store (hcleared : ∀ j l q, Cleared s j →
      (s.engine j).readings l = some q → r.netns = q.netns ∧ r.cuts = q.cuts)
    (hsound : Sound s → r.netns = s.netns ∧ r.cuts = s.cuts) (hnone : Unfetched s) (k : Kind) :
    Kept { s with
      store := update s.store k
        (some { number := s.saves, netns := r.netns, cuts := r.cuts, facts := r.facts })
      saves := s.saves + 1 } := by
  have hbelongs : ∀ n c, Belongs s n c → r.netns = n ∧ r.cuts = c →
      Belongs { s with
        store := update s.store k
          (some { number := s.saves, netns := r.netns, cuts := r.cuts, facts := r.facts })
        saves := s.saves + 1 } n c := by
    intro n c hb hr l saved hsaved
    by_cases hl : l = k
    · subst hl
      simp only [update_self, some.injEq] at hsaved
      subst hsaved
      exact .inl hr
    · simp only [update_of_ne hl] at hsaved
      exact hb l saved hsaved
  exact
    { h with
      belongs := fun hs => hbelongs _ _ (h.belongs hs) (hsound hs)
      fetched := fun j p hp => absurd hp (by simp [hnone j])
      cleared := fun j l q hj hq => hbelongs _ _ (h.cleared j l q hj hq)
        (hcleared j l q hj hq) }

/-- More has been replayed, and nobody captures. -/
theorem Kept.replay (hquiet : Quiet s) (live : Kind → List Fact) (more : List (Nat × Nat)) :
    Kept { s with live := live, replays := s.replays ++ more } := by
  have hnone : ∀ j k r, (s.engine j).readings k ≠ some r := by
    intro j k r hr
    rw [hquiet j k] at hr
    cases hr
  have hmore : ∀ {x}, x ∈ s.replays → x ∈ s.replays ++ more := List.mem_append_left _
  exact
    { h with
      belongs := fun hs k saved hsaved => (h.belongs hs k saved hsaved).imp_right hmore
      replays := fun j k r hr => absurd hr (hnone j k r)
      fetched := fun j p hp => by
        obtain ⟨hsaved, hq, hn, hc, hkinds⟩ := h.fetched j p hp
        refine ⟨hsaved, hq, hn, hc, fun hnow k saved hk hstore => ?_⟩
        exact (hkinds hnow k saved hk hstore).imp_right fun hcleared =>
          hcleared.imp_right fun hleft => hleft.imp_right hmore
      cleared := fun j k r _ hr => absurd hr (hnone j k r)
      agree := fun j _ k _ r _ _ _ hr => absurd hr (hnone j k r) }

/-! ### The engines -/

end

variable [DecidableEq ι] {e : EngineState}

@[simp] theorem setEngine_self : (s.setEngine i e).engine i = e := by
  simp [setEngine]

theorem setEngine_ne (hne : j ≠ i) : (s.setEngine i e).engine j = s.engine j := by
  simp [setEngine, hne]

/-- What holds of the new state of one engine and of the others as they were holds
    of all. -/
theorem setEngine_forall {P : ι → EngineState → Prop} (hi : P i e)
    (hothers : ∀ j, j ≠ i → P j (s.engine j)) (j : ι) : P j ((s.setEngine i e).engine j) :=
  (forall_update_iff s.engine P).mpr ⟨hi, hothers⟩ j

/-- What an engine may come to know: a namespace it names is in the record
    already or the device looks right, it is sure only of a device that looks
    right, it reads nothing, and its readings are let through only where they
    were before or the device looks right. -/
structure Learns (s : DeviceState ι) (i : ι) (e : EngineState) : Prop where
  tracker : ∀ n, e.tracker = some (some n) → n ≤ s.netns ∧ (n = s.netns → Trusted s)
  assured : ∀ n c, e.assured = some (n, c) →
    n ≤ s.netns ∧ c ≤ s.cuts ∧ (n = s.netns → c = s.cuts → Sound s)
  readings : ∀ k r, e.readings k = some r → (s.engine i).readings k = some r
  fetched : ∀ p, e.fetched = some p → Replaying s p
  cleared : ∀ k r, e.readings k = some r → Cleared (s.setEngine i e) i → Cleared s i ∨ Sound s

theorem learns_fresh (s : DeviceState ι) (i : ι) : Learns s i .fresh where
  tracker := by simp [EngineState.fresh]
  assured := by simp [EngineState.fresh]
  readings := by simp [EngineState.fresh]
  fetched := by simp [EngineState.fresh]
  cleared := by simp [EngineState.fresh]

section

variable (h : Kept s)

include h

/-- An engine that learns what is so keeps the invariant. -/
theorem Kept.setEngine (hl : Learns s i e) : Kept (s.setEngine i e) := by
  have htrust : Trusted (s.setEngine i e) → Trusted s := by
    rintro (hb | ⟨j, hj⟩)
    · exact .inl hb
    · exact setEngine_forall (P := fun _ e => e.tracker = some (some s.netns) → Trusted s)
        (fun hi => (hl.tracker _ hi).2 rfl) (fun j _ hj => .inr ⟨j, hj⟩) j hj
  have hsound : Sound (s.setEngine i e) → Sound s := by
    rintro (⟨ht, hdown⟩ | ⟨j, hj⟩)
    · exact .inl ⟨htrust ht, hdown⟩
    · exact setEngine_forall (P := fun _ e => e.assured = some (s.netns, s.cuts) → Sound s)
        (fun hi => (hl.assured _ _ hi).2.2 rfl rfl) (fun j _ hj => .inr ⟨j, hj⟩) j hj
  -- Every reading was there before, and is let through only as it was.
  have hread : ∀ j k r, ((s.setEngine i e).engine j).readings k = some r →
      (s.engine j).readings k = some r :=
    setEngine_forall
      (P := fun j e => ∀ k r, e.readings k = some r → (s.engine j).readings k = some r)
      hl.readings fun _ _ _ _ hr => hr
  have hcleared : ∀ j k r, ((s.setEngine i e).engine j).readings k = some r →
      Cleared (s.setEngine i e) j → Cleared s j ∨ Sound s := by
    intro j k r hr hj
    by_cases hij : j = i
    · subst hij
      rw [setEngine_self] at hr
      exact hl.cleared k r hr hj
    · rw [Cleared, setEngine_ne hij] at hj
      exact .inl hj
  have hquiet : Quiet s → Quiet (s.setEngine i e) := fun hq j k =>
    eq_none_iff_forall_not_mem.mpr fun r hr => absurd (hread j k r hr) (by simp [hq j k])
  exact
    { h with
      tracker_le := setEngine_forall (P := fun _ e => ∀ n, e.tracker = some (some n) → n ≤ s.netns)
        (fun n hn => (hl.tracker n hn).1) fun j _ => h.tracker_le j
      assured_le := setEngine_forall
        (P := fun _ e => ∀ n c, e.assured = some (n, c) → n ≤ s.netns ∧ c ≤ s.cuts)
        (fun n c hn => ⟨(hl.assured n c hn).1, (hl.assured n c hn).2.1⟩) fun j _ => h.assured_le j
      belongs := fun hs => h.belongs (hsound hs)
      current := fun hs j k r hr => h.current (hsound hs) j k r (hread j k r hr)
      replays := fun j k r hr => h.replays j k r (hread j k r hr)
      fetched := setEngine_forall
        (P := fun _ e' => ∀ p, e'.fetched = some p → Replaying (s.setEngine i e) p)
        (fun p hp => (hl.fetched p hp).imp_right fun hrest => hrest.imp_left hquiet)
        fun j _ p hp => (h.fetched j p hp).imp_right fun hrest => hrest.imp_left hquiet
      cleared := fun j k r hj hr => h.vouched (hcleared j k r hr hj) (hread j k r hr)
      agree := fun j m k l r q hj hm hr hq =>
        h.vouched_agree (hcleared j k r hr hj) (hcleared m l q hq hm) (hread j k r hr)
          (hread m l q hq) }

/-- What the engine knows already. -/
theorem Kept.learns (i : ι) : Learns s i (s.engine i) where
  tracker := fun n hn => ⟨h.tracker_le i n hn, fun heq => .inr ⟨i, heq ▸ hn⟩⟩
  assured := fun n c hn => ⟨(h.assured_le i n c hn).1, (h.assured_le i n c hn).2,
    fun hnow hcuts => .inr ⟨i, by rw [Assured, hn, hnow, hcuts]⟩⟩
  readings := fun _ _ hr => hr
  fetched := h.fetched i
  cleared := fun _ _ _ hi => .inl (by rwa [Cleared, setEngine_self] at hi)

theorem Kept.pass {tracker : Option (Option Nat)} {assured : Option (Nat × Nat)}
    {finding : Finding} {replayed : Bool} {phase : CapturePhase}
    (hphase : phase ≠ .storing ∧ phase ≠ .checked)
    (htracker : ∀ n, tracker = some (some n) → n ≤ s.netns ∧ (n = s.netns → Trusted s))
    (hassured : ∀ n c, assured = some (n, c) →
      n ≤ s.netns ∧ c ≤ s.cuts ∧ (n = s.netns → c = s.cuts → Sound s)) :
    Kept (s.setEngine i { s.engine i with
      finding := finding, tracker := tracker, replayed := replayed, phase := phase
      assured := assured }) := by
  refine h.setEngine { h.learns i with
    tracker := htracker, assured := hassured, cleared := fun k r hr hi => ?_ }
  rw [Cleared, setEngine_self] at hi
  rcases hi with hi | ⟨hi, -⟩
  · exact absurd hi hphase.1
  · exact absurd hi hphase.2

/-! ### A replay -/

theorem kept_fetch (hquiet : Quiet s) (i : ι) : Kept (s.fetch i) := by
  refine h.setEngine { h.learns i with
    fetched := fun p hp => ?_, cleared := fun k r hr _ => absurd hr (by simp [hquiet i k]) }
  cases hp
  refine ⟨rfl, hquiet, le_refl _, le_refl _, fun _ k saved hk hstore => .inl ?_⟩
  -- every kind that is saved is cleared first
  cases k with
  | frr | bird => cases hk
  | addrs | ovs | tunnels => simp [replayCommands, hstore]

/-- One command of a replay keeps it. -/
theorem kept_command {p : Replay} {c : Command} {left : List Command}
    (hp : (s.engine i).fetched = some p) (hleft : p.left = c :: left) :
    Kept (s.command i p c left) := by
  obtain ⟨hsaved, hquiet, hn, hc, hkinds⟩ := h.fetched i p hp
  refine (h.replay hquiet _ _).setEngine { (h.replay hquiet _ _).learns i with
    fetched := fun q hq => ?_, cleared := fun k r hr _ => absurd hr (by simp [hquiet i k]) }
  cases hq
  refine ⟨hsaved, hquiet, hn, hc, fun hnow k saved hk hstore => ?_⟩
  rw [hleft] at hkinds
  -- once a kind was cleared here, it has commands left or its last one was run just now
  have hlast : ∀ cleared : Kind → Option Nat, cleared k = some s.netns →
      (∃ c' ∈ c :: left, c'.kind = k) ∨ (saved.number, s.netns) ∈ s.replays →
      (∃ c' ∈ left, c'.kind = k) ∨ (saved.number, s.netns) ∈ s.replays ++
        s.replayedInto { p with left := left, cleared := cleared } c.kind left := by
    rintro cleared hcleared (⟨c', hc', rfl⟩ | hdone)
    · by_cases hmore : ∃ d ∈ left, d.kind = c'.kind
      · exact .inl hmore
      · right
        push Not at hmore
        obtain rfl : c' = c := (List.mem_cons.mp hc').resolve_right fun hin => hmore c' hin rfl
        rw [replayedInto, if_pos ⟨hcleared, hmore⟩, hsaved, hstore]
        simp
    · exact .inr (List.mem_append_left _ hdone)
  rcases hkinds hnow k saved hk hstore with hreset | ⟨hcleared, hrest⟩
  · rcases List.mem_cons.mp hreset with rfl | hreset
    · exact .inr ⟨update_self .., hlast _ (update_self ..) (.inl ⟨_, List.mem_cons_self, rfl⟩)⟩
    · exact .inl hreset
  · cases c with
    | add => exact .inr ⟨hcleared, hlast _ hcleared hrest⟩
    | reset k' =>
      -- a kind that is cleared once more is cleared here
      have hstill : update p.cleared k' (some s.netns) k = some s.netns := by
        by_cases hkk : k = k'
        · rw [hkk]
          exact update_self ..
        · exact (update_of_ne hkk ..).trans hcleared
      exact .inr ⟨hstill, hlast _ hstill hrest⟩

/-- So does the end of a replay. -/
theorem kept_restored {p : Replay} (hp : (s.engine i).fetched = some p) (hleft : p.left = []) :
    Kept (s.restored i p) := by
  obtain ⟨hsaved, hquiet, hn, hc, hkinds⟩ := h.fetched i p hp
  have hquiet' : Quiet (s.restored i p) :=
    setEngine_forall (P := fun _ e => ∀ k, e.readings k = none) (hquiet i) fun j _ => hquiet j
  have hnone : ∀ j k r, ((s.restored i p).engine j).readings k ≠ some r := by
    intro j k r hr
    nomatch (hquiet' j k).symm.trans hr
  have hloaded := h.replay hquiet (s.restored i p).live
    ((allKinds.filter fun k => !namespaceBackedKind k).filterMap fun k =>
      (p.saved k).map fun saved => (saved.number, s.netns))
  -- if the device is where it was, everything is replayed into its namespace
  have hbelongs : p.since.1 = s.netns → Belongs (s.restored i p) s.netns s.cuts := by
    intro hnow k saved hstore
    right
    by_cases hk : namespaceBackedKind k = true
    · rcases hkinds hnow k saved hk hstore with hreset | ⟨-, ⟨c, hc, -⟩ | hdone⟩
      · simp [hleft] at hreset
      · simp [hleft] at hc
      · exact List.mem_append_left _ hdone
    · refine List.mem_append_right _ (List.mem_filterMap.mpr ⟨k, ?_, ?_⟩)
      · exact List.mem_filter.mpr ⟨mem_allKinds k, by simpa using hk⟩
      · rw [hsaved]
        exact (congrArg (Option.map _) hstore).trans rfl
  exact
    { hloaded with
      tracker_le := setEngine_forall (P := fun _ e => ∀ n, e.tracker = some (some n) → n ≤ s.netns)
        (h.tracker_le i) fun j _ => h.tracker_le j
      assured_le := by
        refine setEngine_forall
          (P := fun _ e => ∀ n c, e.assured = some (n, c) → n ≤ s.netns ∧ c ≤ s.cuts)
          (fun n c hnc => ?_) fun j _ => h.assured_le j
        rw [some.inj hnc] at hn hc
        exact ⟨hn, hc⟩
      belongs := by
        rintro (⟨hb | ⟨j, hj⟩, hdown⟩ | ⟨j, hj⟩)
        · exact hloaded.belongs (.inl ⟨.inl hb, hdown⟩)
        · refine setEngine_forall (P := fun _ e => e.tracker = some (some s.netns) → _)
            (fun hi => ?_) (fun j _ hj => ?_) j hj
          · exact hloaded.belongs (.inl ⟨.inr ⟨i, hi⟩, hdown⟩)
          · exact hloaded.belongs (.inl ⟨.inr ⟨j, hj⟩, hdown⟩)
        · refine setEngine_forall (P := fun _ e => e.assured = some (s.netns, s.cuts) → _)
            (fun hi => ?_) (fun j _ hj => ?_) j hj
          · exact hbelongs (congrArg Prod.fst (some.inj hi))
          · exact hloaded.belongs (.inr ⟨j, hj⟩)
      current := fun _ j k r hr => absurd hr (hnone j k r)
      replays := fun j k r hr => absurd hr (hnone j k r)
      fetched := setEngine_forall
        (P := fun _ e => ∀ q, e.fetched = some q → Replaying (s.restored i p) q)
        nofun fun j _ q hq => (hloaded.fetched j q hq).imp_right fun hrest =>
          hrest.imp_left fun _ => hquiet'
      cleared := fun j k r _ hr => absurd hr (hnone j k r)
      agree := fun j _ k _ r _ _ _ hr => absurd hr (hnone j k r) }

theorem kept_restore {p : Replay} (hp : (s.engine i).fetched = some p) (ok : Bool) :
    Kept (s.restore i p ok) := by
  unfold DeviceState.restore
  split_ifs
  · cases hleft : p.left with
    | nil => exact kept_restored h hp hleft
    | cons c left => exact kept_command h hp hleft
  · -- the replay is given up
    obtain ⟨-, hquiet, -⟩ := h.fetched i p hp
    exact h.setEngine { h.learns i with
      fetched := by simp, cleared := fun k r hr _ => absurd hr (by simp [hquiet i k]) }

/-! ### A capture -/

theorem kept_settle {modelled : Bool}
    (hcare : (s.engine i).tracker.getD none = none →
      modelled = false ∧ (s.engine i).finding.createdThisPass = false) :
    Kept (s.settle i answers modelled) := by
  -- Without a record nothing is proven, so the guard adds no namespace.
  have hboot : (settleCaptureSafety (s.engine i).finding ((s.engine i).tracker.getD none)
      (s.netnsIdentityOf answers) (s.proveNamespaceBaseline answers modelled)).2 = none := by
    refine eq_none_iff_forall_not_mem.mpr fun n hn => ?_
    obtain ⟨hrec, hproven⟩ := settled_proven hn
    rw [(hcare hrec).1, prove_unmodelled] at hproven
    nomatch hproven
  unfold settle
  simp only [hboot]
  refine h.setEngine { h.learns i with cleared := fun k r hr hi => .inr ?_ }
  rw [Cleared, setEngine_self] at hi
  rcases hi with hi | ⟨-, hlost, hproven, hdown⟩
  · nomatch hi
  · rcases settled_clear hlost hproven with ⟨hrec, hwhy⟩ | ⟨n, hrec, hnow⟩
    · obtain ⟨hmodelled, hcreated⟩ := hcare hrec
      rcases hwhy with hwhy | hwhy
      · exact absurd (by rw [hmodelled, prove_unmodelled]) hwhy
      · nomatch hcreated.symm.trans hwhy
    · -- The device is in the namespace the engine has on record.
      obtain rfl := netnsIdentityOf_eq hnow
      have htracker : (s.engine i).tracker = some (some s.netns) := by
        cases ht : (s.engine i).tracker with
        | none => simp [ht] at hrec
        | some recorded =>
          rw [ht, getD_some] at hrec
          rw [hrec]
      exact .inl ⟨.inr ⟨i, htracker⟩, hdown⟩

theorem kept_storable (hphase : (s.engine i).phase = .checked)
    (hcare : s.marker = true → answers = true) : Kept (s.storableSnapshots i answers) := by
  unfold DeviceState.storableSnapshots
  by_cases hok : storable (s.engine i).finding (answers && s.marker) = true
  · simp only [hok, if_true]
    refine h.setEngine { h.learns i with cleared := fun k r hr _ => .inl (.inr ?_) }
    simp only [storable, and_eq_true, not_eq_true', or_eq_false_iff] at hok
    obtain ⟨⟨hlost, hproven⟩, -, hseen⟩ := hok
    refine ⟨hphase, hlost, hproven, ?_⟩
    cases hmark : s.marker with
    | false => rfl
    | true => simp [hmark, hcare hmark] at hseen
  · simp only [hok]
    exact h.setEngine { h.learns i with readings := by simp, cleared := by simp }

theorem Kept.dropReadings {readings : Kind → Option Reading} {phase : CapturePhase}
    (hsub : ∀ k r, readings k = some r → (s.engine i).readings k = some r)
    (hphase : phase = .reading ∨ phase = (s.engine i).phase) :
    Kept (s.setEngine i { s.engine i with readings := readings, phase := phase }) := by
  refine h.setEngine { h.learns i with
    readings := hsub, cleared := fun k r hr hi => .inl ?_ }
  rw [Cleared, setEngine_self] at hi
  rcases hphase with rfl | rfl
  · nomatch hi
  · exact hi

theorem kept_put (hphase : (s.engine i).phase = .storing)
    (hr : (s.engine i).readings k = some r) :
    Kept (s.put i k r) ∧ ∀ saved, s.store k = some saved → Continues saved r := by
  have hi : Cleared s i := .inl hphase
  refine ⟨?_, fun saved hsaved => ?_⟩
  · have hsub : ∀ l q, update (s.engine i).readings k none l = some q →
        (s.engine i).readings l = some q := by
      intro l q hq
      by_cases hl : l = k
      · subst hl
        simp at hq
      · rwa [update_of_ne hl] at hq
    unfold put
    simp only
    split_ifs
    · exact h.dropReadings hsub (.inr rfl)
    · -- A reading is about, so no replay is.
      have hnone : Unfetched s := by
        intro j
        refine eq_none_iff_forall_not_mem.mpr fun p hp => ?_
        exact absurd hr (by simp [(h.fetched j p hp).2.1 i k])
      exact (h.store (fun j l q hj hq => h.agree i j k l r q hi hj hr hq)
        (fun hs => h.current hs i k r hr) hnone k).dropReadings hsub (.inr rfl)
  · rcases h.cleared i k r hi hr k saved hsaved with ⟨hn, hc⟩ | hreplayed
    · exact .inl ⟨hn.symm, le_of_eq hc.symm⟩
    · rw [← h.replays i k r hr] at hreplayed
      exact .inr hreplayed

/-! ### Before the readings are judged -/

variable (hphase : (s.engine i).phase = .reading)

include hphase

theorem Kept.setFinding (m : Finding) :
    Kept (s.setEngine i { s.engine i with finding := m }) :=
  h.pass (by simp [hphase]) (h.learns i).tracker (h.learns i).assured

theorem kept_observe {modelled : Bool}
    (hcare : s.baseline = none → modelled = false) : Kept (s.observe i answers modelled) := by
  have htracker : ∀ n, some s.baseline = some (some n) → n ≤ s.netns ∧ (n = s.netns → Trusted s) :=
    fun n hn => ⟨h.baseline_le n (some.inj hn),
      fun heq => .inl (heq ▸ some.inj hn)⟩
  unfold observe
  -- without a baseline nothing can be proven
  cases hb : s.baseline with
  | none =>
    rw [hcare hb]
    simp only [prove_unmodelled]
    exact h.pass (by simp [hphase]) (by simp) (by simp)
  | some n =>
    simp only
    rw [hb] at htracker
    by_cases hrun : s.running = false
    · rw [if_pos hrun]
      exact h.pass (by simp [hphase]) htracker (by simp)
    · rw [if_neg hrun]
      by_cases hsame : s.netnsIdentityOf answers = some n
      · rw [if_pos hsame]
        refine h.pass (by simp [hphase]) htracker ?_
        intro m c hm
        cases hmark : s.marker with
        | true => simp [hmark] at hm
        | false =>
          simp only [hmark, false_eq_true, if_false, some.injEq,
            Prod.mk.injEq] at hm
          obtain ⟨rfl, rfl⟩ := hm
          -- the identity that answered is the one on record
          have htrust : Trusted s := .inl (by rw [hb, netnsIdentityOf_eq hsame])
          exact ⟨le_refl _, le_refl _, fun _ _ => .inl ⟨htrust, hmark⟩⟩
      · rw [if_neg hsame]
        exact h.pass (by simp [hphase]) htracker (by simp)

theorem kept_hold (ran told : Bool) :
    Kept (s.holdNamespaceState i ran told) := by
  unfold DeviceState.holdNamespaceState
  -- The pass is sure of the device as it was before the marker went up.
  refine Kept.setMarker (s := s.setEngine i _)
    (h.pass (by simp [hphase]) (h.learns i).tracker ?_) ?_
  · intro n c hn
    by_cases hok : (!s.marker && s.running && s.baseline == some s.netns) = true
    · simp only [hok, if_true, some.injEq, Prod.mk.injEq] at hn
      obtain ⟨rfl, rfl⟩ := hn
      simp only [and_eq_true, not_eq_true', beq_iff_eq] at hok
      exact ⟨le_refl _, le_refl _, fun _ _ => .inl ⟨.inl hok.2, hok.1.1⟩⟩
    · simp only [hok] at hn
      exact (h.learns i).assured n c hn
  · intro hdown
    exact .inl (or_eq_false_iff.mp hdown).1

theorem kept_clear {ran : Bool}
    (hcare : s.marker = true → Assured s i) : Kept (s.clearRestorePending i ran) := by
  have hmarker : (s.marker && !ran) = false → s.marker = false ∨ Sound s := by
    intro hdown
    cases hmark : s.marker with
    | false => exact .inl rfl
    | true => exact .inr (.inr ⟨i, hcare hmark⟩)
  exact (h.setMarker hmarker).setFinding hphase _

theorem kept_record (hcare : s.marker = true ∨ Assured s i) :
    Kept (s.recordDeviceNamespace i answers) := by
  unfold DeviceState.recordDeviceNamespace
  simp only
  split_ifs
  · exact h.setFinding hphase _
  · cases hid : s.netnsIdentityOf answers with
    | none => exact h
    | some n =>
      obtain rfl := netnsIdentityOf_eq hid
      have hrecorded : Kept { s with baseline := some s.netns } := by
        refine h.setBaseline (fun n hn => le_of_eq (some.inj hn).symm) fun _ => ?_
        exact hcare.imp_right fun hi => .inr (.inr ⟨i, hi⟩)
      refine hrecorded.pass (by simp [hphase]) ?_ (hrecorded.learns i).assured
      intro n hn
      simp only [some.injEq] at hn
      exact ⟨le_of_eq hn.symm, fun _ => .inl rfl⟩

theorem kept_capture (hcare : Unfetched s)
    (k : Kind) : Kept (s.capture i k) := by
  have hread : ∀ j l q, ((s.capture i k).engine j).readings l = some q →
      (j = i ∧ q.netns = s.netns ∧ q.cuts = s.cuts ∧ q.replays = s.replays) ∨
        (s.engine j).readings l = some q := by
    intro j l q hq
    by_cases hij : j = i
    · subst hij
      simp only [capture, setEngine_self] at hq
      by_cases hl : l = k
      · subst hl
        rw [update_self, some.injEq] at hq
        subst hq
        exact .inl ⟨rfl, rfl, rfl, rfl⟩
      · rw [update_of_ne hl] at hq
        exact .inr hq
    · simp only [capture, setEngine_ne hij] at hq
      exact .inr hq
  -- Only engines that were past the guard before are now.
  have hpast : ∀ j, Cleared (s.capture i k) j → j ≠ i ∧ Cleared s j := by
    intro j hj
    by_cases hij : j = i
    · subst hij
      simp [Cleared, capture, hphase] at hj
    · rw [Cleared, capture, setEngine_ne hij] at hj
      exact ⟨hij, hj⟩
  have hold : ∀ j l q, j ≠ i → ((s.capture i k).engine j).readings l = some q →
      (s.engine j).readings l = some q :=
    fun j l q hij hq => (hread j l q hq).resolve_left fun hnew => hij hnew.1
  have hsame : ∀ j, ((s.capture i k).engine j).tracker = (s.engine j).tracker ∧
      ((s.capture i k).engine j).assured = (s.engine j).assured ∧
      ((s.capture i k).engine j).fetched = (s.engine j).fetched := by
    intro j
    by_cases hij : j = i
    · subst hij
      simp [capture]
    · simp [capture, setEngine_ne hij]
  have hsound : Sound (s.capture i k) → Sound s := by
    rintro (⟨hb | ⟨j, hj⟩, hdown⟩ | ⟨j, hj⟩)
    · exact .inl ⟨.inl hb, hdown⟩
    · exact .inl ⟨.inr ⟨j, (hsame j).1 ▸ hj⟩, hdown⟩
    · exact .inr ⟨j, (hsame j).2.1.symm.trans hj⟩
  exact
    { h with
      tracker_le := fun j n hj => h.tracker_le j n ((hsame j).1 ▸ hj)
      assured_le := fun j n c hj => h.assured_le j n c ((hsame j).2.1 ▸ hj)
      belongs := fun hs => h.belongs (hsound hs)
      current := fun hs j l q hq => (hread j l q hq).elim (fun hnew => ⟨hnew.2.1, hnew.2.2.1⟩)
        (h.current (hsound hs) j l q)
      replays := fun j l q hq => (hread j l q hq).elim (fun hnew => hnew.2.2.2) (h.replays j l q)
      fetched := fun j p hj => absurd ((hsame j).2.2 ▸ hj) (by simp [hcare j])
      cleared := fun j l q hj hq => h.cleared j l q (hpast j hj).2 (hold j l q (hpast j hj).1 hq)
      agree := fun j m l l' q q' hj hm hq hq' =>
        h.agree j m l l' q q' (hpast j hj).2 (hpast m hm).2 (hold j l q (hpast j hj).1 hq)
          (hold m l' q' (hpast m hm).1 hq') }

end

/-! ### Runs -/

/-- A step ends in a state that is as it should be and replaces only what a reading
    continues. -/
def KeptBy (out : DeviceState ι × List (Saved × Reading)) : Prop :=
  Kept out.1 ∧ ∀ o ∈ out.2, Continues o.1 o.2

/-- So does every careful action. -/
theorem kept_step {a : Action ι} (h : Kept s) (hcare : Careful s a) :
    KeptBy ((savedState ι).step s a) := by
  -- Everything but a store of a reading is silent, and is done or left.
  have hsilent : ∀ s' : DeviceState ι, Kept s' → KeptBy (s', []) :=
    fun s' hs' => ⟨hs', by simp⟩
  have hguard : ∀ {p : Prop} [Decidable p] (s' : DeviceState ι), (p → Kept s') →
      KeptBy (if p then (s', []) else (s, [])) := by
    intro p _ s' hs'
    split_ifs with hp
    · exact hsilent s' (hs' hp)
    · exact hsilent s h
  cases a with
  | edit k facts | stop => exact hsilent _ { h with }
  | restart => exact hsilent _ (h.renew .inl)
  | unplug left => exact hsilent _ (h.unplug left hcare)
  | forget i => exact hsilent _ (h.setEngine (learns_fresh s i))
  | recreate i =>
    exact hguard _ fun hphase => (h.renew fun _ => hcare).setFinding hphase _
  | observe i answers modelled => exact hguard _ fun hphase => kept_observe h hphase hcare
  | restoreIfNeeded i ran =>
    have hup : (s.marker || ran) = false → s.marker = false ∨ Sound s :=
      fun hdown => .inl (or_eq_false_iff.mp hdown).1
    exact hguard _ fun hphase => (h.setMarker hup).setFinding hphase _
  | holdNamespaceState i ran told => exact hguard _ fun hphase => kept_hold h hphase ran told
  | fetch i => exact hguard _ fun _ => kept_fetch h hcare i
  | restore i ok =>
    simp only [savedState]
    cases hp : (s.engine i).fetched with
    | none => exact hsilent _ h
    | some p => exact hsilent _ (kept_restore h hp ok)
  | clearRestorePending i ran => exact hguard _ fun hphase => kept_clear h hphase hcare
  | recordDeviceNamespace i writesReference answers probed =>
    simp only [savedState]
    split_ifs with _ hphase
    · exact hsilent _ (kept_record h hphase hcare)
    · exact hsilent _ h
    · exact hsilent _ h
  | saveRecord i =>
    simp only [savedState]
    cases ht : (s.engine i).tracker with
    | none => exact hsilent _ h
    | some recorded =>
      refine hsilent _ (h.setBaseline (fun n hn => ?_) fun hn => ?_)
      · exact h.tracker_le i n (by rw [ht, hn])
      · exact .inr (.inl (.inr ⟨i, by rw [ht, hn]⟩))
  | capture i k =>
    simp only [savedState]
    split_ifs with _ hphase
    · exact hsilent _ (kept_capture h hphase hcare k)
    · exact hsilent _ h
    · exact hsilent _ h
  | loadObservation i ok =>
    refine hguard _ fun _ => h.pass (by simp) ?_ (h.learns i).assured
    intro n hn
    cases ok with
    | false => simp at hn
    | true =>
      have hb : s.baseline = some n := by simpa using hn
      exact ⟨h.baseline_le n hb, fun heq => .inl (heq ▸ hb)⟩
  | settleCaptureSafety i answers modelled => exact hguard _ fun _ => kept_settle h hcare
  | storableSnapshots i answers => exact hguard _ fun hphase => kept_storable h hphase hcare
  | put i k =>
    simp only [savedState]
    cases hr : (s.engine i).readings k with
    | none => exact hsilent _ h
    | some r =>
      simp only
      by_cases hphase : (s.engine i).phase = .storing
      · rw [if_pos hphase]
        obtain ⟨hnext, hcontinues⟩ := kept_put h hphase hr
        refine ⟨hnext, fun o ho => ?_⟩
        simp only at ho
        split_ifs at ho
        · simp at ho
        · obtain ⟨saved, hsaved, rfl⟩ := List.mem_map.mp ho
          exact hcontinues saved (mem_toList.mp hsaved)
      · rw [if_neg hphase]
        exact hsilent _ h
  | finish i => exact hsilent _ (h.dropReadings (by simp) (.inl rfl))

/-- In every run whose steps are all careful, from a device nothing has been
    done to, a capture replaces only state that its reading continues. -/
theorem replaced_continues {as : List (Action ι)}
    (hcare : (savedState ι).Along Careful .unused as) :
    ∀ o ∈ (savedState ι).trace .unused as, Continues o.1 o.2 :=
  (savedState ι).trace_along Kept (fun o => Continues o.1 o.2)
    (fun _ _ h hcare => kept_step h hcare) kept_unused hcare

/-! ### Two runs -/

/-- A capture of the addresses by one engine. -/
def captureAddrs (i : Fin 3) : List (Action (Fin 3)) :=
  [.capture i .addrs, .loadObservation i true, .settleCaptureSafety i true true,
    .storableSnapshots i true, .put i .addrs, .finish i]

/-- The device is deployed by the first engine, its student gives it an address,
    and the second engine saves it. -/
def deployedAndSaved : List (Action (Fin 3)) :=
  [.recreate 0, .restoreIfNeeded 0 true, .fetch 0, .restore 0 true, .clearRestorePending 0 true,
    .recordDeviceNamespace 0 false true true,
    .edit .addrs [.object "addr inet eth0 10.0.0.1/24"]] ++ captureAddrs 1

/-- The task is restarted, the third engine finds the device in another
    namespace and puts its address back, and the student adds one. -/
def restartedAndPutBack : List (Action (Fin 3)) :=
  [.restart, .observe 2 true true, .restoreIfNeeded 2 true, .fetch 2] ++
    List.replicate 3 (.restore 2 true) ++
    [.clearRestorePending 2 true, .recordDeviceNamespace 2 false true true,
    .edit .addrs [.object "addr inet eth0 10.0.0.1/24", .object "addr inet eth1 10.0.1.1/24"]]

/-- After the address was put back, the next capture replaces what was saved. -/
theorem put_back_then_replaced :
    let as := deployedAndSaved ++ restartedAndPutBack ++ captureAddrs 1
    (savedState (Fin 3)).Along Careful .unused as ∧
      (savedState (Fin 3)).trace .unused as ≠ [] ∧
      ∀ o ∈ (savedState (Fin 3)).trace .unused as, Continues o.1 o.2 := by
  intro as
  have hcare : (savedState (Fin 3)).Along Careful .unused as := by decide +kernel
  exact ⟨hcare, by decide +kernel, replaced_continues hcare⟩

/-- A deployment finds the device where it should be and configures it, and the
    task is restarted before the namespace is recorded. The empty namespace is
    recorded as the configured one, and the next capture puts it over the saved
    address. The same happens when a replay has put the address back and the task is
    restarted before its last command. -/
theorem restart_before_record_overwrites :
    (∃ o ∈ (savedState (Fin 3)).trace .unused
        (deployedAndSaved ++
          [.observe 2 true true, .restart, .recordDeviceNamespace 2 false true true] ++
          captureAddrs 1),
      ¬ Continues o.1 o.2 ∧ o.1.facts = [.object "addr inet eth0 10.0.0.1/24"] ∧
        o.2.facts = []) ∧
    ∃ o ∈ (savedState (Fin 3)).trace .unused
        (deployedAndSaved ++
          [.restart, .observe 2 true true, .restoreIfNeeded 2 true, .fetch 2, .restore 2 true,
            .restore 2 true, .restart, .restore 2 true, .clearRestorePending 2 true,
            .recordDeviceNamespace 2 false true true] ++ captureAddrs 1),
      ¬ Continues o.1 o.2 ∧ o.1.facts = [.object "addr inet eth0 10.0.0.1/24"] ∧
        o.2.facts = [] := by
  decide +kernel

end Deploy

end Twinet
