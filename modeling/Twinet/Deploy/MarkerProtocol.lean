import Mathlib.Data.List.TakeWhile
import Twinet.Deploy.Rewire

/-!
# The Marker Protocol of a Rewire

What a rewire owes its devices, whatever fails on the way: a refused rewire
has deleted nothing and left the markers as they were, a rewire that started
leaves every device marked or replayed, recorded and then released, and a
marker that was there before is not taken away without a replay.

The protocol breaks where the engine cannot tell whether a marker was already
there. `restoreIsPending` answers no when its question fails, so a marker an
earlier pass left counts as written by this one, and a refusal takes it back.

## Main definitions

* `MarkerProtocol`: What a rewire owes its devices.
* `HoldSound`, `ReleaseSound`: The conditions on its two halves.
* `RewireSound`: Both together.

## Theorems

* `hold_refused_iff`: A refused rewire keeps the protocol exactly when its hold
  is sound.
* `release_iff`: A started rewire keeps the protocol exactly when its releases
  are sound.
* `rewire_protocol_iff`: Both together.
-/

namespace Twinet

namespace Deploy

open List Owed
open Event
open RewireEngine

variable {f : Faults} {ids rest : List String} {e : RewireEngine}

/-- What a rewire of the devices `ids` owes, from the state it began in to the
    state and the error it returns. -/
structure MarkerProtocol (ids : List String) (s : Owed) (r : Owed × Option RewireError) : Prop where
  /-- A refused rewire deleted nothing, and changed no marker but those it
      names. -/
  refused : ∀ err, r.2 = some err → err.notStarted = true →
    (∀ id, .unplugged id ∉ r.1.log) ∧ ∀ id, r.1.marker id ≠ s.marker id → id ∈ err.stuck
  /-- A rewire that started leaves each device released in order, or marked. -/
  started : (∀ err, r.2 = some err → err.notStarted = false) → ∀ id ∈ ids,
    [replayed id, .recorded id, .unmarked id].Sublist r.1.log ∨ r.1.marker id = true
  /-- A marker that was there is not removed without a replay. -/
  kept : ∀ id, s.marker id = true → .unmarked id ∈ r.1.log →
    [replayed id, .unmarked id].Sublist r.1.log

/-! ### Marking -/

/-- The state after every device was marked. -/
def holdAll (ids : List String) (s : Owed) : Owed :=
  ids.foldl (fun s id => (s.setMarker id true).setPending id true) s

theorem holdAll_cons (id : String) (ids : List String) (s : Owed) :
    holdAll (id :: ids) s = holdAll ids ((s.setMarker id true).setPending id true) := rfl

theorem holdAll_marker (ids : List String) (s : Owed) (j : String) :
    (holdAll ids s).marker j = (decide (j ∈ ids) || s.marker j) := by
  induction ids generalizing s with
  | nil => simp [holdAll]
  | cons id rest ih =>
    rw [holdAll_cons, ih]
    by_cases hj : j = id <;> simp [hj, setMarker, setPending]

theorem holdAll_log (ids : List String) (s : Owed) :
    (holdAll ids s).log = s.log ++ ids.map .marked := by
  induction ids generalizing s with
  | nil => simp [holdAll]
  | cons id rest ih =>
    rw [holdAll_cons, ih]
    simp [setMarker, setPending]

variable {s : Owed} {id : String} {j : String}

theorem restoreIsPending_of_ne (h : j ≠ id) :
    restoreIsPending f j ((s.setMarker id true).setPending id true) = restoreIsPending f j s := by
  simp [restoreIsPending, setMarker, setPending, h]

theorem hold_of_done (h : ∀ id ∈ ids, f.hold id = .done)
    (written : List String) (s : Owed) :
    holdRewiredState f written ids s = (holdAll ids s, none) := by
  induction ids generalizing written s with
  | nil => rfl
  | cons id rest ih =>
    have hid : f.hold id = .done := h id (by simp)
    simp only [holdRewiredState, holdNamespaceState, setMarkerBy, hid, if_true]
    exact ih (fun j hj => h j (by simp [hj])) _ _

variable {k : String}

theorem hold_of_refused {held : List String} (hdone : ∀ id ∈ held, f.hold id = .done)
    (hk : f.hold k ≠ .done) (hnodup : held.Nodup) (written : List String) (s : Owed) :
    holdRewiredState f written (held ++ k :: rest) s =
      let r := releaseHeldState f (written ++ held.filter (fun j => !restoreIsPending f j s))
        (holdNamespaceState f k (holdAll held s)).1
      (r.1, some (.unmarked k r.2)) := by
  induction held generalizing written s with
  | nil =>
    have hno : (holdNamespaceState f k s).2 = false := by
      unfold holdNamespaceState setMarkerBy
      cases hcase : f.hold k with
      | done => exact absurd hcase hk
      | failed | lost => rfl
    simp [holdRewiredState, hno, holdAll]
  | cons id held ih =>
    have hid : f.hold id = .done := hdone id (by simp)
    have hrest : ∀ j ∈ held, f.hold j = .done := fun j hj => hdone j (by simp [hj])
    -- what is held first does not change what was pending elsewhere
    have hfilter : held.filter (fun j => !restoreIsPending f j
        ((s.setMarker id true).setPending id true)) =
        held.filter (fun j => !restoreIsPending f j s) := by
      refine filter_congr fun j hj => ?_
      rw [restoreIsPending_of_ne]
      rintro rfl
      exact (nodup_cons.mp hnodup).1 hj
    simp only [cons_append, holdRewiredState, holdNamespaceState, setMarkerBy, hid, if_true]
    rw [ih hrest (nodup_cons.mp hnodup).2, hfilter]
    cases hpending : restoreIsPending f id s with
    | true | false => simp [hpending, holdNamespaceState, setMarkerBy, holdAll]

/-! ### Taking markers back -/

theorem releaseHeld_marker (f : Faults) (ids : List String) (s : Owed) (j : String) :
    (releaseHeldState f ids s).1.marker j =
      if j ∈ ids ∧ f.takeBack j ≠ .failed then false else s.marker j := by
  induction ids generalizing s with
  | nil => simp [releaseHeldState]
  | cons id rest ih =>
    simp only [releaseHeldState]
    rw [ih]
    cases hcase : f.takeBack id <;> by_cases hj : j = id <;>
      simp [setMarkerBy, setMarker, setPending, hj, hcase]

theorem releaseHeld_stuck (f : Faults) (ids : List String) (s : Owed) :
    (releaseHeldState f ids s).2 = ids.filter (fun id => f.takeBack id != .done) := by
  induction ids generalizing s with
  | nil => rfl
  | cons id rest ih =>
    simp only [releaseHeldState, filter_cons]
    rw [ih]
    cases hcase : f.takeBack id <;> simp [setMarkerBy]

theorem releaseHeld_log (f : Faults) (ids : List String) (s : Owed) :
    (releaseHeldState f ids s).1.log =
      s.log ++ (ids.filter (fun id => f.takeBack id != .failed)).map .unmarked := by
  induction ids generalizing s with
  | nil => simp [releaseHeldState]
  | cons id rest ih =>
    simp only [releaseHeldState, filter_cons]
    rw [ih]
    cases hcase : f.takeBack id <;> simp [setMarkerBy, setMarker, setPending]

/-! ### A refused rewire -/

/-- The devices marked before the first that could not be. -/
def held (f : Faults) (ids : List String) : List String := ids.takeWhile (f.hold · == .done)

/-- The first device that could not be marked. -/
def refusing (f : Faults) (ids : List String) : Option String :=
  (ids.dropWhile (f.hold · == .done)).head?

/-- Everything a refused hold takes back is its own, and it leaves nothing
    behind: no device was remembered as pending without carrying a marker, a
    marker that was there was seen to be there or could not be removed, and the
    command that failed did not run on a device without a marker. -/
def HoldSound (f : Faults) (s : Owed) (ids : List String) : Prop :=
  ∀ k, refusing f ids = some k →
    (∀ j ∈ held f ids, (s.pendingRestore j = true → s.marker j = true) ∧
      (s.marker j = true → s.pendingRestore j = true ∨ f.probe j = true ∨
        f.takeBack j = .failed)) ∧
    (f.hold k = .lost → s.marker k = true)

theorem refusing_eq_some (h : refusing f ids = some k) :
    ∃ rest, ids = held f ids ++ k :: rest ∧ f.hold k ≠ .done := by
  unfold refusing at h
  obtain ⟨rest, hrest⟩ := head?_eq_some_iff.mp h
  refine ⟨rest, ?_, ?_⟩
  · rw [← hrest]
    exact (takeWhile_append_dropWhile).symm
  · have hne : ids.dropWhile (f.hold · == .done) ≠ [] := by simp [hrest]
    have hhead := head_dropWhile_not (f.hold · == .done) hne
    simp only [hrest, head_cons, beq_eq_false_iff_ne] at hhead
    exact hhead

theorem refusing_eq_none (h : refusing f ids = none) :
    ∀ id ∈ ids, f.hold id = .done := by
  have hempty : ids.dropWhile (f.hold · == .done) = [] := head?_eq_none_iff.mp h
  intro id hid
  have hall := dropWhile_eq_nil_iff.mp hempty id hid
  exact beq_iff_eq.mp hall

theorem done_of_mem_held (h : j ∈ held f ids) : f.hold j = .done := by
  have hp := mem_takeWhile_imp (p := (f.hold · == .done)) h
  exact beq_iff_eq.mp hp

/-- The devices whose markers a refusal takes back. -/
def written (f : Faults) (s : Owed) (ids : List String) : List String :=
  (held f ids).filter (fun j => !restoreIsPending f j s)

theorem mem_written :
    j ∈ written f s ids ↔ j ∈ held f ids ∧ s.pendingRestore j = false ∧
      (f.probe j = true → s.marker j = false) := by
  simp only [written, restoreIsPending, mem_filter, Bool.not_or, Bool.not_and,
    Bool.and_eq_true, Bool.or_eq_true, Bool.not_eq_true']
  refine and_congr_right fun _ => and_congr_right fun _ => ?_
  cases f.probe j <;> simp

/-- A sound hold, in terms of the markers it takes back. -/
theorem holdSound_iff (hk : refusing f ids = some k) :
    HoldSound f s ids ↔
      (∀ j ∈ held f ids, j ∉ written f s ids → s.marker j = true) ∧
        (∀ j ∈ written f s ids, s.marker j = true → f.takeBack j = .failed) ∧
          (f.hold k = .lost → s.marker k = true) := by
  simp only [HoldSound, hk, Option.some.injEq, forall_eq', mem_written, ← and_assoc,
    ← forall_and]
  refine and_congr_left fun _ => forall_congr' fun j => ?_
  by_cases hj : j ∈ held f ids
  · cases s.pendingRestore j <;> cases s.marker j <;> cases f.probe j <;> simp [hj]
  · simp [hj]

theorem hold_refusing (hnodup : ids.Nodup) (hk : refusing f ids = some k) :
    holdRewiredState f [] ids s =
      let r := releaseHeldState f (written f s ids)
        (holdNamespaceState f k (holdAll (held f ids) s)).1
      (r.1, some (.unmarked k r.2)) := by
  obtain ⟨rest, hids, hnot⟩ := refusing_eq_some hk
  conv_lhs => rw [hids]
  rw [hold_of_refused (fun id hid => done_of_mem_held hid) hnot (hids ▸ hnodup).of_append_left]
  rfl

/-- For a refused hold the protocol is a matter of its markers. -/
theorem hold_refused_iff (hlog : s.log = []) (hnodup : ids.Nodup) (hk : refusing f ids = some k) :
    MarkerProtocol ids s (holdRewiredState f [] ids s) ↔ HoldSound f s ids := by
  obtain ⟨-, -, hnot⟩ := refusing_eq_some hk
  have hkheld : k ∉ held f ids := fun hmem => hnot (done_of_mem_held hmem)
  have hkout : k ∉ written f s ids := fun hmem => hkheld (mem_written.mp hmem).1
  -- What the command on the refusing device did.
  have hmarker : ∀ j, (holdNamespaceState f k (holdAll (held f ids) s)).1.marker j =
      if j = k ∧ f.hold k = .lost then true else decide (j ∈ held f ids) || s.marker j := by
    intro j
    rw [← holdAll_marker]
    cases hcase : f.hold k with
    | done => exact absurd hcase hnot
    | failed => simp [holdNamespaceState, setMarkerBy, hcase]
    | lost =>
      by_cases hj : j = k <;> simp [holdNamespaceState, setMarkerBy, hcase, setMarker, hj]
  have hevents : ∀ j, .unmarked j ∉ (holdNamespaceState f k (holdAll (held f ids) s)).1.log ∧
      .unplugged j ∉ (holdNamespaceState f k (holdAll (held f ids) s)).1.log ∧
      .replayed j ∉ (holdNamespaceState f k (holdAll (held f ids) s)).1.log := by
    intro j
    cases hcase : f.hold k <;>
      simp [holdNamespaceState, setMarkerBy, hcase, setMarker, setPending, holdAll_log,
        hlog]
  rw [hold_refusing hnodup hk, holdSound_iff hk]
  constructor
  · intro hprotocol
    have hnamed := (hprotocol.refused _ rfl rfl).2
    simp only [RewireError.stuck, releaseHeld_stuck, releaseHeld_marker, hmarker] at hnamed
    have hkept := hprotocol.kept
    simp only [releaseHeld_log, mem_append, hevents, false_or, mem_map, mem_filter,
      bne_iff_ne, unmarked.injEq, exists_eq_right] at hkept
    refine ⟨fun j hj hout => ?_, fun j hin hmarked => ?_, fun hlost => ?_⟩
    · by_contra hno
      have hjk : j ≠ k := fun heq => hkheld (heq ▸ hj)
      exact hout (mem_filter.mp (hnamed j (by simp [hout, hjk, hj, hno]))).1
    · by_contra hno
      have hreplayed := (hkept j hmarked ⟨hin, hno⟩).subset (mem_cons_self (a := replayed j))
      simp [hevents] at hreplayed
    · by_contra hno
      exact hkout (mem_filter.mp (hnamed k (by simp [hkout, hlost, hno]))).1
  · rintro ⟨hheld, htaken, hlost⟩
    refine ⟨?_, ?_, ?_⟩
    · rintro err herr -
      cases herr
      refine ⟨fun j => ?_, fun j hchanged => ?_⟩
      · simp [releaseHeld_log, hevents]
      · simp only [RewireError.stuck, releaseHeld_stuck, mem_filter, bne_iff_ne]
        simp only [releaseHeld_marker, hmarker] at hchanged
        by_cases hin : j ∈ written f s ids
        · refine ⟨hin, fun hdone => ?_⟩
          have hfree : s.marker j = false := Bool.eq_false_iff.mpr fun hmarked => by
            simp [htaken j hin hmarked] at hdone
          simp [hin, hdone, hfree] at hchanged
        · simp only [hin, false_and, if_false] at hchanged
          refine absurd ?_ hchanged
          split_ifs with hjk
          · rw [hjk.1, hlost hjk.2]
          · by_cases hj : j ∈ held f ids
            · simp [hheld j hj hin]
            · simp [hj]
    · intro hnone
      exact absurd (hnone _ rfl) (by simp [RewireError.notStarted])
    · intro j hmarked hmem
      simp only [releaseHeld_log, mem_append, hevents, false_or, mem_map,
        mem_filter, bne_iff_ne, unmarked.injEq, exists_eq_right] at hmem
      exact absurd (htaken j hmem.1 hmarked) hmem.2

/-! ### A rewire that started -/

/-- A record that is left out without an error: the engine keeps none, the
    record belongs to no agent, or what is in the namespace is in doubt. -/
def recordSkipped (e : RewireEngine) (f : Faults) (id : String) : Bool :=
  e.recordsNothing || e.belongsToNoAgent (f.reload id) ||
    (f.reload id == .ok && e.namespaceUnproven id)

/-- The record is written, or left out without an error. -/
def recordPasses (e : RewireEngine) (f : Faults) (id : String) : Bool :=
  recordSkipped e f id || (f.reload id == .ok && f.publish id &&
    (((f.identity id).take namespaceProofAttempts).findSome? (·)).isSome)

theorem record_cases (e : RewireEngine) (f : Faults) (id : String) (s : Owed) :
    (recordSkipped e f id = true ∧ recordRewiredNamespace e f id s = (s, true)) ∨
    (recordSkipped e f id = false ∧ recordPasses e f id = true ∧
      ∃ n, recordRewiredNamespace e f id s =
        ({ s with namespaces := n }.note (.recorded id), true)) ∨
    (recordPasses e f id = false ∧ recordRewiredNamespace e f id s = (s, false)) := by
  unfold recordPasses recordSkipped recordRewiredNamespace
  cases hnothing : e.recordsNothing with
  | true => simp
  | false =>
    have hsupports : e.supportsNetnsIdentity = true := by
      simp only [recordsNothing, Bool.or_eq_false_iff, Bool.not_eq_false']
        at hnothing
      exact hnothing.2
    -- a denied read passes where the state belongs to no agent
    cases hload : f.reload id with
    | denied => cases hroot : e.defaultRoot <;> simp [belongsToNoAgent, hroot]
    | failed => simp [belongsToNoAgent]
    | ok =>
      cases hunproven : e.namespaceUnproven id with
      | true => simp [recordDeviceNamespace, hunproven]
      | false =>
        cases hread : ((f.identity id).take namespaceProofAttempts).findSome? (·) with
        | none =>
          simp [recordDeviceNamespace, hunproven, hread, hsupports,
            belongsToNoAgent]
        | some identity =>
          cases hpublish : f.publish id with
          | false =>
            simp [recordDeviceNamespace, hunproven, hread, hsupports, hpublish,
              belongsToNoAgent]
          | true =>
            refine .inr (.inl ⟨by simp [belongsToNoAgent], by simp, ?_⟩)
            simp only [recordDeviceNamespace, hunproven, hread, hsupports, hpublish,
              Bool.not_true, Bool.or_false, Bool.false_eq_true, if_false, if_true,
              ne_eq, not_true_eq_false]
            exact ⟨_, rfl⟩

/-- A device that is let go of: the loop reaches the next one. -/
def letGo (e : RewireEngine) (f : Faults) (id : String) : Bool :=
  f.replay id && recordPasses e f id && f.release id == .done

/-- No device is released without a record: not one the loop lets go of, and
    not the one it stops at. -/
def ReleaseSound (e : RewireEngine) (f : Faults) (ids : List String) : Prop :=
  (∀ id ∈ ids.takeWhile (letGo e f), recordSkipped e f id = false) ∧
    ∀ k, (ids.dropWhile (letGo e f)).head? = some k → f.replay k = true →
      recordSkipped e f k = true → f.release k = .failed

theorem releaseSound_cons :
    ReleaseSound e f (id :: rest) ↔
      (f.replay id = true → recordSkipped e f id = true → f.release id = .failed) ∧
        (letGo e f id = true → ReleaseSound e f rest) := by
  unfold ReleaseSound
  cases hgo : letGo e f id with
  | true =>
    have hparts : (f.replay id = true ∧ recordPasses e f id = true) ∧ f.release id = .done := by
      simpa [letGo] using hgo
    simp only [takeWhile_cons, hgo, if_true, dropWhile_cons, mem_cons,
      forall_eq_or_imp, hparts.1.1, hparts.2, reduceCtorEq, forall_const, imp_false,
      Bool.not_eq_true]
    exact and_assoc
  | false => simp [hgo]

theorem sublist_append_of_disjoint {l before after : List Event} (h : ∀ x ∈ l, x ∉ before) :
    l.Sublist (before ++ after) ↔ l.Sublist after := by
  refine ⟨fun hsub => ?_, fun hsub => hsub.trans (sublist_append_right before after)⟩
  obtain ⟨l₁, l₂, rfl, hl₁, hl₂⟩ := sublist_append_iff.mp hsub
  have hempty : l₁ = [] := by
    refine eq_nil_iff_forall_not_mem.mpr fun x hx => ?_
    exact h x (by simp [hx]) (hl₁.subset hx)
  rw [hempty]
  exact hl₂

theorem sublist_append_of_disjoint_right {l before after : List Event}
    (h : ∀ x ∈ l, x ∉ after) : l.Sublist (before ++ after) ↔ l.Sublist before := by
  rw [← reverse_sublist, reverse_append, sublist_append_of_disjoint (by simpa using h),
    reverse_sublist]

/-- What the loop leaves of one device. -/
def Released (new : List Event) (s : Owed) (id : String) : Prop :=
  [replayed id, .recorded id, .unmarked id].Sublist new ∨ s.marker id = true

/-- What the loop of releases does: its events belong to its devices, a marker
    is only removed after a replay, and it leaves every device as owed exactly
    when no release goes without a record. -/
structure ReleaseSpec (e : RewireEngine) (f : Faults) (ids : List String) (s s' : Owed)
    (new : List Event) : Prop where
  log : s'.log = s.log ++ new
  frame : ∀ id, id ∉ ids → s'.marker id = s.marker id
  unmarked : ∀ id, .unmarked id ∈ new → id ∈ ids ∧ [replayed id, .unmarked id].Sublist new
  recorded : ∀ id, .recorded id ∈ new → id ∈ ids
  replayed : ∀ id, .replayed id ∈ new → id ∈ ids
  sound : (∀ id ∈ ids, Released new s' id) ↔ ReleaseSound e f ids

variable {head : List Event}

theorem ReleaseSpec.stop {s' : Owed}
    (hlog : s'.log = s.log ++ head)
    (hframe : ∀ j, j ≠ id → s'.marker j = s.marker j) (hrest : ∀ j ∈ rest, s.marker j = true)
    (hhead : head.Sublist [.replayed id, .recorded id, .unmarked id])
    (hreplayed : .unmarked id ∈ head → [Event.replayed id, .unmarked id].Sublist head)
    (hgo : letGo e f id = false)
    (hsound : Released head s' id ↔
      (f.replay id = true → recordSkipped e f id = true → f.release id = .failed)) :
    ReleaseSpec e f (id :: rest) s s' head where
  log := hlog
  frame j hj := hframe j fun heq => hj (by simp [heq])
  unmarked j hj := by
    obtain rfl : j = id := by simpa using hhead.subset hj
    exact ⟨by simp, hreplayed hj⟩
  recorded j hj := by
    obtain rfl : j = id := by simpa using hhead.subset hj
    exact mem_cons_self
  replayed j hj := by
    obtain rfl : j = id := by simpa using hhead.subset hj
    exact mem_cons_self
  sound := by
    rw [releaseSound_cons, hgo]
    refine ⟨fun hall => ⟨hsound.mp (hall id (by simp)), by simp⟩, fun hcond j hj => ?_⟩
    by_cases hjid : j = id
    · rw [hjid]
      exact hsound.mpr hcond.1
    · -- the markers after the one that stopped are still there
      right
      rw [hframe j hjid]
      exact hrest j (by simpa [hjid] using hj)

variable {t : Owed}

theorem ReleaseSpec.next {s' : Owed} {new : List Event}
    (hspec : ReleaseSpec e f rest t s' new)
    (hlog : t.log = s.log ++ head) (hframe : ∀ j, j ≠ id → t.marker j = s.marker j)
    (hfresh : id ∉ rest) (hmarker : t.marker id = false)
    (hhead : head.Sublist [.replayed id, .recorded id, .unmarked id])
    (hreplayed : [Event.replayed id, .unmarked id].Sublist head)
    (hgo : letGo e f id = true)
    (hsound : [Event.replayed id, .recorded id, .unmarked id].Sublist head ↔
      recordSkipped e f id = false) :
    ReleaseSpec e f (id :: rest) s s' (head ++ new) where
  log := by rw [hspec.log, hlog, append_assoc]
  frame j hj := by
    simp only [mem_cons, not_or] at hj
    rw [hspec.frame j hj.2, hframe j hj.1]
  unmarked j hj := by
    rcases mem_append.mp hj with hj | hj
    · obtain rfl : j = id := by simpa using hhead.subset hj
      exact ⟨by simp, hreplayed.trans (sublist_append_left _ _)⟩
    · obtain ⟨hmem, hsub⟩ := hspec.unmarked j hj
      exact ⟨by simp [hmem], hsub.trans (sublist_append_right _ _)⟩
  recorded j hj := by
    rcases mem_append.mp hj with hj | hj
    · obtain rfl : j = id := by simpa using hhead.subset hj
      exact mem_cons_self
    · simp [hspec.recorded j hj]
  replayed j hj := by
    rcases mem_append.mp hj with hj | hj
    · obtain rfl : j = id := by simpa using hhead.subset hj
      exact mem_cons_self
    · simp [hspec.replayed j hj]
  sound := by
    have hother : ∀ j ∈ rest, (Released (head ++ new) s' j ↔ Released new s' j) := by
      intro j hj
      have hne : j ≠ id := fun heq => hfresh (heq ▸ hj)
      refine or_congr_left (sublist_append_of_disjoint fun x hx hmem => ?_)
      have hmem' := hhead.subset hmem
      simp only [mem_cons, not_mem_nil, or_false] at hx hmem'
      rcases hx with rfl | rfl | rfl <;> simp [hne] at hmem'
    have hself : Released (head ++ new) s' id ↔ recordSkipped e f id = false := by
      rw [← hsound]
      constructor
      · rintro (hsub | hmarked)
        · -- None of the device's events are in the rest of the loop.
          refine (sublist_append_of_disjoint_right fun x hx hnew => hfresh ?_).mp hsub
          simp only [mem_cons, not_mem_nil, or_false] at hx
          rcases hx with rfl | rfl | rfl
          · exact hspec.replayed id hnew
          · exact hspec.recorded id hnew
          · exact (hspec.unmarked id hnew).1
        · rw [hspec.frame id hfresh, hmarker] at hmarked
          nomatch hmarked
      · exact fun hsub => .inl (hsub.trans (sublist_append_left _ _))
    have hparts : (f.replay id = true ∧ recordPasses e f id = true) ∧ f.release id = .done := by
      simpa [letGo] using hgo
    rw [releaseSound_cons, hgo, ← hspec.sound]
    simp only [mem_cons, forall_eq_or_imp, hself, hparts.1.1, hparts.2, forall_const,
      reduceCtorEq, imp_false, Bool.not_eq_true]
    exact and_congr_right fun _ => forall₂_congr hother

theorem released_of_marker (hmarker : s.marker id = true)
    (hcond : f.replay id = true → recordSkipped e f id = true → f.release id = .failed) :
    Released head s id ↔
      (f.replay id = true → recordSkipped e f id = true → f.release id = .failed) :=
  iff_of_true (.inr hmarker) hcond

theorem releaseRewired_recorded (hreplay : f.replay id = true)
    (hrun : recordRewiredNamespace e f id (s.note (.replayed id)) = (t, true))
    (rest : List String) :
    (releaseRewired e f (id :: rest) s).1 =
      match f.release id with
      | .done =>
        (releaseRewired e f rest
          (((t.setMarker id false).setPending id false).setLost id false)).1
      | .failed => t
      | .lost => t.setMarker id false := by
  simp only [releaseRewired, hreplay, hrun, releaseNamespaceState, Bool.not_true,
    Bool.false_eq_true, if_false]
  cases f.release id <;> simp [setMarkerBy]

/-- The events of a device up to its release. -/
def recordedEvents (e : RewireEngine) (f : Faults) (id : String) : List Event :=
  if recordSkipped e f id then [.replayed id] else [.replayed id, .recorded id]

theorem recordedEvents_unmarked_sublist (e : RewireEngine) (f : Faults) (id : String) :
    (recordedEvents e f id ++ [unmarked id]).Sublist
        [.replayed id, .recorded id, .unmarked id] ∧
      [replayed id, .unmarked id].Sublist (recordedEvents e f id ++ [.unmarked id]) ∧
      ([replayed id, .recorded id, .unmarked id].Sublist
        (recordedEvents e f id ++ [.unmarked id]) ↔ recordSkipped e f id = false) := by
  unfold recordedEvents
  cases recordSkipped e f id with
  | true =>
    refine ⟨(Sublist.cons _ (Sublist.refl _)).cons_cons _, Sublist.refl _, ?_⟩
    simp only [Bool.true_eq_false, iff_false]
    intro hsub
    simpa using hsub.subset (show recorded id ∈ _ by simp)
  | false =>
    refine ⟨Sublist.refl _, (Sublist.cons _ (Sublist.refl _)).cons_cons _, ?_⟩
    simp

theorem ReleaseSpec.recorded_turn
    (ih : ∀ s : Owed, (∀ j ∈ rest, s.marker j = true) →
      ∃ new, ReleaseSpec e f rest s (releaseRewired e f rest s).1 new)
    (hfresh : id ∉ rest) (hmarked : ∀ j ∈ id :: rest, s.marker j = true)
    (hreplay : f.replay id = true) (hpass : recordPasses e f id = true)
    (hrun : recordRewiredNamespace e f id (s.note (.replayed id)) = (t, true))
    (htlog : t.log = s.log ++ recordedEvents e f id) (htmarker : t.marker = s.marker) :
    ∃ new, ReleaseSpec e f (id :: rest) s (releaseRewired e f (id :: rest) s).1 new := by
  have hid : t.marker id = true := by rw [htmarker]; exact hmarked id (by simp)
  have hrest : ∀ j ∈ rest, s.marker j = true := fun j hj => hmarked j (by simp [hj])
  obtain ⟨hsub, hpair, htriple⟩ := recordedEvents_unmarked_sublist e f id
  rw [releaseRewired_recorded hreplay hrun]
  -- the loop goes on only after a release that is seen to work
  cases hrelease : f.release id with
  | done =>
    obtain ⟨new, hspec⟩ := ih (((t.setMarker id false).setPending id false).setLost id false)
      (fun j hj => by
        have hne : j ≠ id := fun heq => hfresh (heq ▸ hj)
        simpa [setMarker, setPending, setLost, hne, htmarker] using hrest j hj)
    refine ⟨(recordedEvents e f id ++ [.unmarked id]) ++ new,
      hspec.next ?_ ?_ hfresh ?_ hsub hpair ?_ htriple⟩
    · simp [setMarker, setPending, setLost, htlog]
    · intro j hj
      simp [setMarker, setPending, setLost, hj, htmarker]
    · simp [setMarker, setPending, setLost]
    · simp [letGo, hreplay, hpass, hrelease]
  | failed =>
    refine ⟨recordedEvents e f id, .stop htlog (fun j _ => by rw [htmarker]) hrest ?_ ?_ ?_ ?_⟩
    · exact (sublist_append_left _ _).trans hsub
    · unfold recordedEvents
      split_ifs <;> simp
    · simp [letGo, hrelease]
    · exact released_of_marker hid fun _ _ => hrelease
  | lost =>
    refine ⟨recordedEvents e f id ++ [.unmarked id], .stop ?_ ?_ hrest hsub (fun _ => hpair)
      ?_ ?_⟩
    · simp [setMarker, htlog]
    · intro j hj
      simp [setMarker, hj, htmarker]
    · simp [letGo, hrelease]
    · have hgone : (t.setMarker id false).marker id ≠ true := by simp [setMarker]
      simp [Released, hgone, htriple, hreplay, hrelease]

theorem release_spec (e : RewireEngine) (f : Faults) (ids : List String) :
    ∀ s : Owed, ids.Nodup → (∀ id ∈ ids, s.marker id = true) →
      ∃ new, ReleaseSpec e f ids s (releaseRewired e f ids s).1 new := by
  induction ids with
  | nil =>
    intro s _ _
    refine ⟨[], ⟨by simp [releaseRewired], fun _ _ => rfl, by simp, by simp, by simp, ?_⟩⟩
    simp [ReleaseSound]
  | cons id rest ih =>
    intro s hnodup hmarked
    obtain ⟨hfresh, hrestnodup⟩ := nodup_cons.mp hnodup
    have hid : s.marker id = true := hmarked id (by simp)
    have hrest : ∀ j ∈ rest, s.marker j = true := fun j hj => hmarked j (by simp [hj])
    have hturn := fun t => ReleaseSpec.recorded_turn (t := t) (fun t => ih t hrestnodup) hfresh
      hmarked
    cases hreplay : f.replay id with
    | false =>
      -- a failed replay ends the loop with the marker in place
      have hstop : (releaseRewired e f (id :: rest) s).1 = s := by
        simp [releaseRewired, hreplay]
      rw [hstop]
      refine ⟨[], .stop (by simp) (fun _ _ => rfl) hrest (by simp) (by simp) ?_ ?_⟩
      · simp [letGo, hreplay]
      · exact released_of_marker hid (by simp [hreplay])
    | true =>
      -- the baseline is not kept here, or recorded, or lost
      rcases record_cases e f id (s.note (.replayed id)) with
        ⟨hskip, hrun⟩ | ⟨hskip, hpass, n, hrun⟩ | ⟨hpass, hrun⟩
      · exact hturn _ hreplay (by simp [recordPasses, hskip]) hrun
          (by simp [recordedEvents, hskip, note]) rfl
      · exact hturn _ hreplay hpass hrun
          (by simp [recordedEvents, hskip, note]) rfl
      · have hstop : (releaseRewired e f (id :: rest) s).1 = s.note (.replayed id) := by
          simp [releaseRewired, hreplay, hrun]
        rw [hstop]
        refine ⟨[.replayed id], .stop rfl (fun _ _ => rfl) hrest (by simp) (by simp) ?_ ?_⟩
        · simp [letGo, hpass]
        · refine released_of_marker hid fun _ hskip => ?_
          simp [recordPasses, hskip] at hpass

/-! ### The whole call -/

/-- The condition under which a call keeps the protocol: its hold is sound if
    it is refused, and its releases are sound if it gets to them. -/
def RewireSound (e : RewireEngine) (f : Faults) (s : Owed) (d : String) (peers : List String) :
    Prop :=
  checkNamespaceRecordable e f = true →
    HoldSound f s (d :: peers) ∧
    ((∀ id ∈ d :: peers, f.hold id = .done) → f.rewire = true →
      (∀ id ∈ peers, f.reapply id = true) → ReleaseSound e f (d :: peers))

theorem markAllLost_fields (ids : List String) (s : Owed) :
    (markAllLost ids s).marker = s.marker ∧ (markAllLost ids s).log = s.log := by
  induction ids generalizing s with
  | nil => exact ⟨rfl, rfl⟩
  | cons id rest ih => exact ih (s.setLost id true)

theorem releaseRewired_started (e : RewireEngine) (f : Faults) (ids : List String) (s : Owed)
    (err : RewireError) (h : (releaseRewired e f ids s).2 = some err) : err.notStarted = false := by
  induction ids generalizing s with
  | nil => simp [releaseRewired] at h
  | cons id rest ih =>
    simp only [releaseRewired] at h
    split_ifs at h
    · cases h
      rfl
    · cases h
      rfl
    · cases h
      rfl
    · exact ih _ h

/-- A rewire whose devices are all marked keeps the protocol exactly when its
    releases are sound. -/
theorem release_iff {d : String} (hnodup : ids.Nodup) (hmarked : ∀ id ∈ ids, t.marker id = true)
    (hlog : ∀ ev ∈ t.log, ev = .unplugged d ∨ ∃ id, ev = .marked id) :
    MarkerProtocol ids s (releaseRewired e f ids t) ↔ ReleaseSound e f ids := by
  obtain ⟨new, hspec⟩ := release_spec e f ids t hnodup hmarked
  have htriple : ∀ id, [replayed id, .recorded id, .unmarked id].Sublist
      (releaseRewired e f ids t).1.log ↔
      [replayed id, .recorded id, .unmarked id].Sublist new := by
    intro id
    rw [hspec.log]
    refine sublist_append_of_disjoint fun x hx hmem => ?_
    rcases hlog x hmem with rfl | ⟨_, rfl⟩ <;> simp at hx
  rw [← hspec.sound]
  constructor
  · intro hprotocol id hid
    have hend := hprotocol.started (releaseRewired_started e f ids t) id hid
    rwa [htriple] at hend
  · intro hall
    refine ⟨fun err herr hnot => ?_, fun _ id hid => ?_, fun id _ hmem => ?_⟩
    · rw [releaseRewired_started e f ids t err herr] at hnot
      nomatch hnot
    · rw [htriple]
      exact hall id hid
    · rw [hspec.log] at hmem ⊢
      rcases mem_append.mp hmem with hold | hnew
      · rcases hlog _ hold with heq | ⟨_, heq⟩ <;> simp at heq
      · exact (hspec.unmarked id hnew).2.trans (sublist_append_right _ _)

theorem protocol_of_marked {d : String} {err : RewireError} (herr : err.notStarted = false)
    (hmarked : ∀ id ∈ ids, t.marker id = true)
    (hlog : ∀ ev ∈ t.log, ev = .unplugged d ∨ ∃ id, ev = .marked id) :
    MarkerProtocol ids s (t, some err) := by
  refine ⟨fun err' herr' hnot => ?_, fun _ id hid => .inr (hmarked id hid), fun id _ hmem => ?_⟩
  · cases herr'
    rw [herr] at hnot
    nomatch hnot
  · rcases hlog _ hmem with heq | ⟨_, heq⟩ <;> simp at heq

/-- A rewire keeps the marker protocol exactly when the markers it takes back
    are its own and no device is released without a record. -/
theorem rewire_protocol_iff (e : RewireEngine) (f : Faults) (top : Topology) (d : Device)
    (s : Owed) :
    MarkerProtocol ((affected top e.node d).map (·.id)) s (rewireDeviceAndPeers e f top d s) ↔
      RewireSound e f s d.id ((localRewirePeers top e.node d).map (·.id)) := by
  have hnodup : (d.id :: (localRewirePeers top e.node d).map (·.id)).Nodup :=
    affected_nodup top e.node d
  change MarkerProtocol (d.id :: (localRewirePeers top e.node d).map (·.id)) s _ ↔ _
  generalize hpeers : (localRewirePeers top e.node d).map (·.id) = peers at hnodup ⊢
  unfold rewireDeviceAndPeers RewireSound
  simp only [hpeers]
  by_cases hrecord : checkNamespaceRecordable e f = true
  · simp only [hrecord, Bool.not_true, Bool.false_eq_true, if_false, forall_const]
    cases hrefusing : refusing f (d.id :: peers) with
    | some k =>
      -- The call is refused: the second half of the condition is void.
      obtain ⟨rest, hids, hnot⟩ := refusing_eq_some hrefusing
      have hnever : ¬ ∀ id ∈ d.id :: peers, f.hold id = .done := fun hall =>
        hnot (hall k (by rw [hids]; simp))
      have hiff := hold_refused_iff (f := f) (s := { s with log := [] }) rfl hnodup hrefusing
      rw [hold_refusing hnodup hrefusing] at hiff ⊢
      simp only [hnever, false_implies, and_true]
      exact ⟨fun h => hiff.mp ⟨h.refused, h.started, h.kept⟩, fun h =>
        ⟨(hiff.mpr h).refused, (hiff.mpr h).started, (hiff.mpr h).kept⟩⟩
    | none =>
      have hdone := refusing_eq_none hrefusing
      have hsound : HoldSound f s (d.id :: peers) := fun k hk => by
        rw [hrefusing] at hk
        nomatch hk
      rw [hold_of_done hdone]
      simp only [hsound, true_and]
      -- Every device is marked before the first interface is touched.
      have hmarked : ∀ id ∈ d.id :: peers,
          ((markAllLost (d.id :: peers) (holdAll (d.id :: peers) { s with log := [] })).note
            (.unplugged d.id)).marker id = true := by
        intro id hid
        rw [note, (markAllLost_fields _ _).1, holdAll_marker]
        simp [hid]
      have hlog : ∀ ev ∈ ((markAllLost (d.id :: peers) (holdAll (d.id :: peers)
          { s with log := [] })).note (.unplugged d.id)).log,
          ev = .unplugged d.id ∨ ∃ id, ev = .marked id := by
        intro ev hev
        rw [note, (markAllLost_fields _ _).2, holdAll_log] at hev
        simp only [nil_append, mem_append, mem_map, mem_singleton] at hev
        rcases hev with ⟨id, -, rfl⟩ | rfl
        · exact .inr ⟨id, rfl⟩
        · exact .inl rfl
      by_cases hrewire : f.rewire = true
      · simp only [hrewire, Bool.not_true, Bool.false_eq_true, if_false, forall_const]
        unfold restoreRewiredPeers
        by_cases happly : ∀ id ∈ peers, f.reapply id = true
        · have hany : peers.any (!f.reapply ·) = false := by
            simpa [any_eq_false] using happly
          rw [hany]
          simp only [Bool.false_eq_true, if_false]
          rw [release_iff hnodup hmarked hlog]
          exact ⟨fun h _ _ => h, fun h => h hdone happly⟩
        · have hany : peers.any (!f.reapply ·) = true := by
            simpa [any_eq_true] using happly
          rw [hany, if_pos rfl]
          exact iff_of_true (protocol_of_marked rfl hmarked hlog) fun _ h => absurd h happly
      · rw [if_pos (by simpa using hrewire)]
        exact iff_of_true (protocol_of_marked rfl hmarked hlog) fun _ h => absurd h hrewire
  · rw [if_pos (by simpa using hrecord)]
    refine iff_of_true ⟨fun err herr _ => ?_, fun hall => ?_, fun id _ hmem => ?_⟩
      fun h => absurd h hrecord
    · exact ⟨fun id => by simp, fun id hid => absurd rfl hid⟩
    · exact absurd (hall _ rfl) (by simp [RewireError.notStarted])
    · simp at hmem

/-- `R1` owes a replay from an earlier pass. The question whether it does is
    not answered, then `R2` cannot be marked, and the refusal takes the marker
    of `R1` away: no interface was deleted, nothing was replayed, and nothing
    says any more that `R1` owes a replay. -/
theorem refused_rewire_drops_marker :
    let e : RewireEngine :=
      { node := "n1", observationReadOnly := false, supportsNetnsIdentity := true
        defaultRoot := false, unprovenNamespace := fun _ => false
        containerCreatedThisPass := fun _ => false }
    let f : Faults :=
      { load := .ok, rewrite := .ok, probe := fun _ => false
        hold := fun id => if id = "as1/R2" then .failed else .done, takeBack := fun _ => .done
        rewire := true, reapply := fun _ => true, replay := fun _ => true, reload := fun _ => .ok
        identity := fun _ => [some ⟨1, 1⟩], publish := fun _ => true, release := fun _ => .done }
    let s : Owed :=
      { marker := fun id => id == "as1/R1", pendingRestore := fun _ => false
        lostNamespaceState := fun _ => false, namespaces := fun _ => none, log := [] }
    ∀ d ∈ cabledPair.devices.head?,
      (rewireDeviceAndPeers e f cabledPair d s).2 = some (.unmarked "as1/R2" []) ∧
        (rewireDeviceAndPeers e f cabledPair d s).1.marker "as1/R1" = false ∧
        (rewireDeviceAndPeers e f cabledPair d s).1.log =
          [.marked "as1/R1", .unmarked "as1/R1"] := by
  decide

end Deploy

end Twinet
