import Twinet.Agent.Generation

/-!
# Failed Saves

The end of a recovery and the end of a destroy, with everything an agent keeps in
memory. Both change several tables and then save; if the save fails, both report
it and put back what they think they changed.

A destroy puts everything back. A recovery puts the transaction back and nothing
else, so that after a failed save the lab is in memory at a generation that the
file does not have, and the repairs that were pending are forgotten.

Repairs are counted by lab and device in one table, under a key made of both.

## Main definitions

* `Memory`: The tables of an agent.
* `Memory.finishRecoveredGeneration`, `Memory.finishDestroyedLab`: The two ends.
* `Memory.Same`, `Memory.Forgets`, `Memory.KeepsOthers`: What may be left by them.

## Theorems

* `Memory.lookup_dropOwned_repairKey`: Whose repairs are forgotten with a lab.
* `Memory.failed_recovery_undone_iff`: When a failed recovery is undone.
* `Memory.destroy_complete_atomic`: A destroy is complete or undone.
-/

namespace Twinet

namespace Agent

open AList Records List

/-- The key under which the repairs of a device are counted. -/
def Memory.repairKey (lab id : String) : String := lab ++ "|" ++ id

/-- A key is one of a lab's. -/
def Memory.ownsKey (lab key : String) : Bool := Strings.hasPrefix key (lab ++ "|")

/-- Where names do not have the bar in them, a lab owns the keys of its devices and
    no others. -/
theorem Memory.ownsKey_repairKey_iff {lab lab' : String} (id : String) (h : '|' ∉ lab.toList)
    (h' : '|' ∉ lab'.toList) : ownsKey lab (repairKey lab' id) = true ↔ lab = lab' := by
  simp only [ownsKey, Strings.hasPrefix, repairKey, String.toList_append,
    isPrefixOf_iff_prefix]
  constructor
  · rintro ⟨rest, hrest⟩
    have hbar : "|".toList = ['|'] := rfl
    rw [hbar, append_assoc, append_assoc, singleton_append,
      singleton_append] at hrest
    -- both sides have their first bar right after the name of the lab
    have hname := congrArg (takeWhile (· ≠ '|')) hrest
    have hbarless : ∀ name : String, '|' ∉ name.toList →
        ∀ c ∈ name.toList, decide (c ≠ '|') = true := by
      intro name hnot c hc
      exact decide_eq_true fun heq => hnot (heq ▸ hc)
    rw [takeWhile_append_of_pos (hbarless lab h),
      takeWhile_append_of_pos (hbarless lab' h')] at hname
    simpa [String.ext_iff] using hname
  · rintro rfl
    exact ⟨id.toList, rfl⟩

/-- The tables of an agent. The values of `current` are the topologies. -/
structure Memory (Top : Type) where
  records : Records
  current : Table String Top
  modes : Table String String
  ungraded : Table String Int
  peers : Table String (Table String String)
  repairFails : Table String Nat
  repairNext : Table String Time
  partials : Table String Nat

namespace Memory

variable {Top : Type}

/-- No lookup tells the two memories apart. -/
structure Same (m m' : Memory Top) : Prop where
  records : Records.Same m.records m'.records
  current : ∀ lab, m.current.lookup lab = m'.current.lookup lab
  modes : ∀ lab, m.modes.lookup lab = m'.modes.lookup lab
  ungraded : ∀ lab, m.ungraded.lookup lab = m'.ungraded.lookup lab
  peers : ∀ lab, m.peers.lookup lab = m'.peers.lookup lab
  repairFails : ∀ key, m.repairFails.lookup key = m'.repairFails.lookup key
  repairNext : ∀ key, m.repairNext.lookup key = m'.repairNext.lookup key
  partials : ∀ key, m.partials.lookup key = m'.partials.lookup key

def dropOwned {ν : Type} (lab : String) (table : Table String ν) : Table String ν :=
  table.filterMap fun key value => if ownsKey lab key then none else some value

/-- Forget the repairs of a lab. -/
def forgetRepairs (m : Memory Top) (lab : String) : Memory Top :=
  { m with
    repairFails := dropOwned lab m.repairFails
    repairNext := dropOwned lab m.repairNext
    partials := dropOwned lab m.partials }

variable (m : Memory Top) (now : Time) (lab : String) (fence : Fence)

/-- The end of a recovery. The repairs are forgotten before the save. -/
def finishRecoveredGeneration (generation : String) (ok : Bool) :
    Memory Top × Option GenerationError :=
  match m.records.finishRecoveredGeneration now lab fence generation ok with
  | (records, none) => ({ m with records := records }.forgetRepairs lab, none)
  | (records, some .persist) => ({ m with records := records }.forgetRepairs lab, some .persist)
  | (records, some err) => ({ m with records := records }, some err)

/-- The end of a destroy. What no save writes is forgotten after it. -/
def finishDestroyedLab (ok : Bool) : Memory Top × Option GenerationError :=
  match m.records.finishDestroyedLab now lab fence ok with
  | (records, some err) => ({ m with records := records }, some err)
  | (records, none) =>
    ({ m with
        records := records
        current := m.current.erase lab
        modes := m.modes.erase lab
        ungraded := m.ungraded.erase lab
        peers := m.peers.erase lab }.forgetRepairs lab, none)

/-- No repair of a lab is pending. -/
def NoRepairs : Prop :=
  ∀ key, ownsKey lab key = true → m.repairFails.lookup key = none ∧
    m.repairNext.lookup key = none ∧ m.partials.lookup key = none

/-- Nothing about a lab is known. -/
structure Forgets : Prop where
  overlayClaims : ∀ vni claim, m.records.overlayClaims.lookup vni = some claim → claim.lab ≠ lab
  generations : m.records.generations.lookup lab = none
  transactions : m.records.transactions.lookup lab = none
  inventories : m.records.inventories.lookup lab = none
  overlayLineage : m.records.overlayLineage.lookup lab = none
  ephemeral : m.records.ephemeral.lookup lab = none
  current : m.current.lookup lab = none
  modes : m.modes.lookup lab = none
  ungraded : m.ungraded.lookup lab = none
  peers : m.peers.lookup lab = none
  repairs : m.NoRepairs lab

/-- What is known about all other labs is as it was. -/
structure KeepsOthers (m' : Memory Top) : Prop where
  fenceHighWater : ∀ k, m'.records.fenceHighWater.lookup k = m.records.fenceHighWater.lookup k
  mutations : ∀ k, m'.records.mutations.lookup k = m.records.mutations.lookup k
  overlayClaims : ∀ vni claim, claim.lab ≠ lab →
    (m'.records.overlayClaims.lookup vni = some claim ↔
      m.records.overlayClaims.lookup vni = some claim)
  generations : ∀ k, k ≠ lab → m'.records.generations.lookup k = m.records.generations.lookup k
  transactions : ∀ k, k ≠ lab → m'.records.transactions.lookup k = m.records.transactions.lookup k
  inventories : ∀ k, k ≠ lab → m'.records.inventories.lookup k = m.records.inventories.lookup k
  overlayLineage : ∀ k, k ≠ lab →
    m'.records.overlayLineage.lookup k = m.records.overlayLineage.lookup k
  ephemeral : ∀ k, k ≠ lab → m'.records.ephemeral.lookup k = m.records.ephemeral.lookup k
  current : ∀ k, k ≠ lab → m'.current.lookup k = m.current.lookup k
  modes : ∀ k, k ≠ lab → m'.modes.lookup k = m.modes.lookup k
  ungraded : ∀ k, k ≠ lab → m'.ungraded.lookup k = m.ungraded.lookup k
  peers : ∀ k, k ≠ lab → m'.peers.lookup k = m.peers.lookup k
  repairFails : ∀ key, ownsKey lab key = false →
    m'.repairFails.lookup key = m.repairFails.lookup key
  repairNext : ∀ key, ownsKey lab key = false → m'.repairNext.lookup key = m.repairNext.lookup key
  partials : ∀ key, ownsKey lab key = false → m'.partials.lookup key = m.partials.lookup key

/-! ### Repairs -/

section Repairs

variable {ν : Type} {lab} {key : String} (table : Table String ν)

theorem lookup_dropOwned_of_owned (h : ownsKey lab key = true) :
    (dropOwned lab table).lookup key = none := by
  rw [dropOwned, Table.lookup_filterMap]
  simp [h]

theorem lookup_dropOwned_of_not_owned (h : ownsKey lab key = false) :
    (dropOwned lab table).lookup key = table.lookup key := by
  rw [dropOwned, Table.lookup_filterMap]
  simp [h]

/-- Where names do not have the bar in them, the repairs of the lab's own devices are
    dropped and those of no other lab. -/
theorem lookup_dropOwned_repairKey {lab' : String} (id : String) (h : '|' ∉ lab.toList)
    (h' : '|' ∉ lab'.toList) : (dropOwned lab table).lookup (repairKey lab' id) =
      if lab = lab' then none else table.lookup (repairKey lab' id) := by
  have howned := ownsKey_repairKey_iff id h h'
  by_cases hlab : lab = lab'
  · rw [if_pos hlab, lookup_dropOwned_of_owned table (howned.mpr hlab)]
  · rw [if_neg hlab, lookup_dropOwned_of_not_owned table]
    exact Bool.eq_false_iff.mpr fun htrue => hlab (howned.mp htrue)

theorem dropOwned_same_iff : (∀ key, (dropOwned lab table).lookup key = table.lookup key) ↔
    ∀ key, ownsKey lab key = true → table.lookup key = none := by
  constructor
  · intro h key howned
    rw [← h key, lookup_dropOwned_of_owned table howned]
  · intro h key
    cases howned : ownsKey lab key with
    | true => rw [lookup_dropOwned_of_owned table howned, h key howned]
    | false => exact lookup_dropOwned_of_not_owned table howned

end Repairs

/-! ### The end of a recovery -/

section Recovery

variable {m now lab fence}

theorem finishRecoveredGeneration_persist {generation : String} {ok : Bool}
    (h : (m.finishRecoveredGeneration now lab fence generation ok).2 = some .persist) :
    ∃ tx, m.records.transactions.lookup lab = some tx ∧
      (m.finishRecoveredGeneration now lab fence generation ok).1 =
        { m with records := { m.records with
            generations := m.records.generations.insert lab
              { m.records.generation lab with committed := tx.previousGen, prepared := "" }
            inventories := m.records.inventories.insert lab tx.prestate
            transactions := (m.records.transactions.erase lab).insert lab tx } }.forgetRepairs
          lab := by
  revert h
  unfold finishRecoveredGeneration
  fun_cases m.records.finishRecoveredGeneration now lab fence generation ok with
  | case5 _ tx htx => exact fun _ => ⟨tx, htx, rfl⟩
  | _ => nofun

/-- A recovery that cannot be saved is undone in memory only if there was nothing to
    be undone: the lab was at the generation before the transaction with nothing
    prepared, its inventory was the one before it, and no repair was pending. -/
theorem failed_recovery_undone_iff {generation : String} {ok : Bool}
    (hfail : (m.finishRecoveredGeneration now lab fence generation ok).2 = some .persist) :
    Same (m.finishRecoveredGeneration now lab fence generation ok).1 m ↔
      (∃ tx state, m.records.transactions.lookup lab = some tx ∧
        m.records.generations.lookup lab = some state ∧ state.committed = tx.previousGen ∧
        state.prepared = "" ∧ m.records.inventories.lookup lab = some tx.prestate) ∧
      m.NoRepairs lab := by
  obtain ⟨tx, htx, heq⟩ := finishRecoveredGeneration_persist hfail
  rw [heq]
  constructor
  · intro hsame
    have hgen := hsame.records.generations lab
    have hinv := hsame.records.inventories lab
    simp only [forgetRepairs, lookup_insert] at hgen hinv
    refine ⟨⟨tx, _, htx, hgen.symm, rfl, rfl, hinv.symm⟩, fun key howned => ?_⟩
    exact ⟨(dropOwned_same_iff _).mp hsame.repairFails key howned,
      (dropOwned_same_iff _).mp hsame.repairNext key howned,
      (dropOwned_same_iff _).mp hsame.partials key howned⟩
  · rintro ⟨⟨tx', state, htx', hstate, hcommitted, hprepared, hinv⟩, hrepairs⟩
    obtain rfl := Option.some.inj (htx.symm.trans htx')
    -- what the failed recovery leaves in memory is what was there
    have hwritten : { m.records.generation lab with committed := tx.previousGen, prepared := "" } =
        state := by
      rw [Records.generation, hstate, Option.getD_some, ← hcommitted, ← hprepared]
    refine ⟨⟨fun _ => rfl, fun _ => rfl, fun k => ?_, fun k => ?_, fun k => ?_, fun _ => rfl,
      fun _ => rfl, fun _ => rfl⟩, fun _ => rfl, fun _ => rfl, fun _ => rfl, fun _ => rfl,
      (dropOwned_same_iff _).mpr fun key howned => (hrepairs key howned).1,
      (dropOwned_same_iff _).mpr fun key howned => (hrepairs key howned).2.1,
      (dropOwned_same_iff _).mpr fun key howned => (hrepairs key howned).2.2⟩
    -- generation, transaction and inventory of the lab and of another
    all_goals simp [forgetRepairs]
    all_goals by_cases hk : k = lab
    · subst hk
      rw [lookup_insert, hwritten, hstate]
    · rw [lookup_insert_ne hk]
    · subst hk
      rw [lookup_insert, htx]
    · rw [lookup_insert_ne hk, lookup_erase_ne hk]
    · subst hk
      rw [lookup_insert, hinv]
    · rw [lookup_insert_ne hk]

/-- A lab whose transaction is being taken back, after a restart that found the
    topology of the transaction on disk. A repair may be pending. -/
def sampleMemory (committed prepared : String) (fails : Option Nat) : Memory Unit where
  records := { sampleRecords
      (some { sampleApplied with phase := .recovering }) with
    generations := (∅ : Table String GenerationState).insert "lab"
      { committed := committed, prepared := prepared, ancestors := ["g1"] } }
  current := ∅
  modes := ∅
  ungraded := ∅
  peers := ∅
  repairFails := match fails with
    | some n => (∅ : Table String Nat).insert (repairKey "lab" "as1/r1") n
    | none => ∅
  repairNext := ∅
  partials := ∅

/-- The retry after a failed save finds what that left, and leaves it. -/
theorem second_failed_recovery_undone :
    ((sampleMemory "g1" "" none).finishRecoveredGeneration 0 "lab" sampleFence "g2"
      false).2 = some .persist ∧
    Same ((sampleMemory "g1" "" none).finishRecoveredGeneration 0 "lab" sampleFence "g2"
      false).1 (sampleMemory "g1" "" none) := by
  have hfail : ((sampleMemory "g1" "" none).finishRecoveredGeneration 0 "lab" sampleFence
      "g2" false).2 = some .persist := by decide +kernel
  refine ⟨hfail, (failed_recovery_undone_iff hfail).mpr ⟨⟨{ sampleApplied with
    phase := .recovering }, ⟨"g1", "", ["g1"]⟩, rfl, rfl, rfl, rfl, rfl⟩, fun key _ => ?_⟩⟩
  exact ⟨lookup_empty key, lookup_empty key, lookup_empty key⟩

/-- The first one leaves the lab in memory at `g1`, where the file has `g2`, and
    forgets a repair that has failed three times. -/
theorem failed_recovery_not_undone :
    let before := sampleMemory "g2" "g2" (some 3)
    let after := (before.finishRecoveredGeneration 0 "lab" sampleFence "g2" false).1
    (before.finishRecoveredGeneration 0 "lab" sampleFence "g2" false).2 = some .persist ∧
      ¬ Same after before ∧ (before.records.generation "lab").committed = "g2" ∧
      (after.records.generation "lab").committed = "g1" ∧
      after.repairFails.lookup (repairKey "lab" "as1/r1") = none := by
  refine ⟨by decide +kernel, fun hsame => ?_, rfl, by decide +kernel, by decide +kernel⟩
  exact absurd (hsame.repairFails (repairKey "lab" "as1/r1")) (by decide +kernel)

end Recovery

/-! ### The end of a destroy -/

theorem forgets_destroyed (lab : String) (m : Memory Top) :
    Forgets ({ m with
      records := destroyedRecords m.records lab
      current := m.current.erase lab
      modes := m.modes.erase lab
      ungraded := m.ungraded.erase lab
      peers := m.peers.erase lab }.forgetRepairs lab) lab where
  overlayClaims _ _ h := (Table.lookup_drop.mp h).2
  generations := lookup_erase ..
  transactions := lookup_erase ..
  inventories := lookup_erase ..
  overlayLineage := lookup_erase ..
  ephemeral := lookup_erase ..
  current := lookup_erase ..
  modes := lookup_erase ..
  ungraded := lookup_erase ..
  peers := lookup_erase ..
  repairs _ howned := ⟨lookup_dropOwned_of_owned _ howned, lookup_dropOwned_of_owned _ howned,
    lookup_dropOwned_of_owned _ howned⟩

theorem keepsOthers_destroyed (lab : String) (m : Memory Top) :
    KeepsOthers m lab ({ m with
      records := destroyedRecords m.records lab
      current := m.current.erase lab
      modes := m.modes.erase lab
      ungraded := m.ungraded.erase lab
      peers := m.peers.erase lab }.forgetRepairs lab) where
  fenceHighWater _ := rfl
  mutations _ := rfl
  overlayClaims _ _ hlab := Table.lookup_drop.trans (and_iff_left hlab)
  generations _ hk := lookup_erase_ne hk
  transactions _ hk := lookup_erase_ne hk
  inventories _ hk := lookup_erase_ne hk
  overlayLineage _ hk := lookup_erase_ne hk
  ephemeral _ hk := lookup_erase_ne hk
  current _ hk := lookup_erase_ne hk
  modes _ hk := lookup_erase_ne hk
  ungraded _ hk := lookup_erase_ne hk
  peers _ hk := lookup_erase_ne hk
  repairFails _ hkey := lookup_dropOwned_of_not_owned _ hkey
  repairNext _ hkey := lookup_dropOwned_of_not_owned _ hkey
  partials _ hkey := lookup_dropOwned_of_not_owned _ hkey

/-- A destroy that succeeds leaves nothing of the lab and everything of the others;
    one that fails, at the fence or at the save, leaves everything. -/
theorem destroy_complete_atomic (ok : Bool) :
    ((m.finishDestroyedLab now lab fence ok).2 = none →
      Forgets (m.finishDestroyedLab now lab fence ok).1 lab ∧
        KeepsOthers m lab (m.finishDestroyedLab now lab fence ok).1) ∧
    ((m.finishDestroyedLab now lab fence ok).2 ≠ none →
      Same (m.finishDestroyedLab now lab fence ok).1 m) := by
  have hrefl : Records.Same m.records m.records :=
    ⟨fun _ => rfl, fun _ => rfl, fun _ => rfl, fun _ => rfl, fun _ => rfl, fun _ => rfl,
      fun _ => rfl, fun _ => rfl⟩
  have hundone : ∀ r, Records.Same r m.records → Same { m with records := r } m := fun r hr =>
    ⟨hr, fun _ => rfl, fun _ => rfl, fun _ => rfl, fun _ => rfl, fun _ => rfl, fun _ => rfl,
      fun _ => rfl⟩
  unfold finishDestroyedLab Records.finishDestroyedLab
  cases fenceError m.records.server lab fence now with
  | some err => exact ⟨fun h => absurd h (by simp), fun _ => hundone _ hrefl⟩
  | none =>
    cases ok with
    | true =>
      exact ⟨fun _ => ⟨forgets_destroyed lab m, keepsOthers_destroyed lab m⟩,
        fun h => absurd rfl h⟩
    | false =>
      exact ⟨fun h => absurd h (by simp),
        fun _ => hundone _ (undestroyedRecords_same m.records lab)⟩

end Memory

end Agent

end Twinet
