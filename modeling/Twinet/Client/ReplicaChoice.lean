import Twinet.State.Store
import Twinet.Lib.Table

/-!
# Choosing Among Replicas

When the node a device moves from is gone, its saved state is put together from
what the other nodes have stored: of every artefact the copy that was taken last.
Two copies of one time have to be alike. A copy is compared with the latest of
those before it, so an older pair that differs is found in some orders and not in
others.

## Main definitions

* `keepLatest`: The loop over the copies.
* `findReplicaState`: The state that is put together.
* `Latest`, `Clash`: The copy to choose, and what stands against it.

## Theorems

* `keepLatest_cases`: What is held after a list of copies.
* `findReplicaState_chooses`: What is chosen, when something is, and that the order
  does not matter to it.
-/

namespace Twinet

namespace Client

open State List

/-- What a node has stored of a lab. -/
structure StoredExport where
  lab : String
  snapshots : List Artefact
  records : List Artefact
deriving DecidableEq, Repr

/-- What an artefact is kept under: whether it is a record of the lab, and its name. -/
abbrev CopyKey := Bool × String

/-- A copy of a snapshot, or of a record. -/
structure Copy extends Artefact where
  isRecord : Bool

def Copy.key (c : Copy) : CopyKey :=
  (c.isRecord, if c.isRecord then c.kind else c.device ++ "/" ++ c.kind)

/-- The copies of an export, in the order they are looked at. -/
def StoredExport.copies (x : StoredExport) : List Copy :=
  x.snapshots.map (⟨·, false⟩) ++ x.records.map (⟨·, true⟩)

/-- Of a record that differs the text has no time. -/
inductive ReplicaError where
  | noReplica (problems : List String)
  | disagree (key : CopyKey) (takenAt : Nat)
deriving DecidableEq, Repr

/-- Go through the copies and keep the latest of every artefact. The table stands
    for the map of snapshots and the map of records. -/
def keepLatest (held : Table CopyKey Copy) :
    List Copy → Except ReplicaError (Table CopyKey Copy)
  | [] => .ok held
  | c :: rest =>
    match held.lookup c.key with
    | none => keepLatest (held.insert c.key c) rest
    | some old =>
      if old.digest ≠ c.digest ∧ old.takenAt = c.takenAt then .error (.disagree c.key c.takenAt)
      else if old.takenAt < c.takenAt then keepLatest (held.insert c.key c) rest
      else keepLatest held rest

/-- The snapshots that are held, or the records, in the order of their keys. -/
def inOrder (held : Table CopyKey Copy) (isRecord : Bool) : List Copy :=
  (((held.keys.filter (·.1 = isRecord)).map (·.2)).insertionSort (· ≤ ·)).filterMap
    fun name => held.lookup (isRecord, name)

/-- What is held, as an export. -/
def collected (lab : String) (held : Table CopyKey Copy) : StoredExport :=
  ⟨lab, (inOrder held false).map (·.toArtefact), (inOrder held true).map (·.toArtefact)⟩

section Find

variable (lab source : String) (answers : List (String × Except String StoredExport))

/-- The exports of the other nodes that have something. -/
def surviving : List StoredExport :=
  answers.filterMap fun (name, answer) =>
    match answer with
    | .ok x => if name ≠ source ∧ (x.snapshots ≠ [] ∨ x.records ≠ []) then some x else none
    | .error _ => none

def problems : List String :=
  answers.filterMap fun (name, answer) =>
    match answer with
    | .ok _ => none
    | .error err => if name ≠ source then some (name ++ ": " ++ err) else none

/-- All copies there are. -/
def copies : List Copy := (surviving source answers).flatMap (·.copies)

/-- The answers are in the order in which the nodes are visited. -/
def findReplicaState : Except ReplicaError StoredExport :=
  if surviving source answers = [] then
    .error (.noReplica ((problems source answers).insertionSort (· ≤ ·)))
  else (keepLatest ∅ (copies source answers)).map (collected lab)

end Find

/-! ### The latest copies -/

variable {cs cs' : List Copy} {c : Copy} {held held' : Table CopyKey Copy}

/-- A copy that none of the others is later than, and that those of its time are
    like. -/
structure Latest (cs : List Copy) (c : Copy) : Prop where
  mem : c ∈ cs
  top : ∀ b ∈ cs, b.key = c.key → b.takenAt ≤ c.takenAt
  same : ∀ b ∈ cs, b.key = c.key → b.takenAt = c.takenAt → b.digest = c.digest

/-- Two copies of one artefact and one time differ. -/
def Clash (cs : List Copy) : Prop :=
  ∃ a ∈ cs, ∃ b ∈ cs, a.key = b.key ∧ a.takenAt = b.takenAt ∧ a.digest ≠ b.digest

/-- A latest copy of every artefact is held. -/
structure Holds (cs : List Copy) (held : Table CopyKey Copy) : Prop where
  latest : ∀ k c, held.lookup k = some c → c.key = k ∧ Latest cs c
  all : ∀ c ∈ cs, ∃ c', held.lookup c.key = some c'

theorem Holds.insert (h : Holds cs held)
    (hlater : ∀ b ∈ cs, b.key = c.key → b.takenAt < c.takenAt) :
    Holds (cs ++ [c]) (held.insert c.key c) := by
  refine ⟨fun k a ha => ?_, fun b hb => ?_⟩
  · by_cases hk : k = c.key
    · rw [hk, AList.lookup_insert, Option.some.injEq] at ha
      refine ⟨by rw [← ha, hk], ?_⟩
      constructor <;> grind
    · rw [AList.lookup_insert_ne hk] at ha
      obtain ⟨hkey, hlatest⟩ := h.latest k a ha
      refine ⟨hkey, ?_⟩
      constructor <;> grind [Latest]
  · by_cases hb' : b.key = c.key
    · exact ⟨c, by rw [hb', AList.lookup_insert]⟩
    · rw [AList.lookup_insert_ne hb']
      exact h.all b (by grind)

/-- A copy that is not later than the one that is held, and like it if it is of the
    same time. -/
theorem Holds.skip {old : Copy} (h : Holds cs held) (hold : held.lookup c.key = some old)
    (htime : c.takenAt ≤ old.takenAt) (hsame : c.takenAt = old.takenAt → c.digest = old.digest) :
    Holds (cs ++ [c]) held := by
  refine ⟨fun k a ha => ?_, fun b hb => ?_⟩
  · obtain ⟨hkey, hlatest⟩ := h.latest k a ha
    refine ⟨hkey, ?_⟩
    constructor <;> grind [Latest]
  · rcases mem_append.mp hb with hb | hb
    · exact h.all b hb
    · exact ⟨old, mem_singleton.mp hb ▸ hold⟩

/-- The copies go through and the latest are held, or two of them differ. -/
theorem keepLatest_cases (cs' : List Copy) (h : Holds cs held) :
    (∃ held', keepLatest held cs' = .ok held' ∧ Holds (cs ++ cs') held') ∨
      (∃ err, keepLatest held cs' = .error err) ∧ Clash (cs ++ cs') := by
  induction cs' generalizing cs held with
  | nil => exact .inl ⟨held, rfl, by rwa [append_nil]⟩
  | cons c rest ih =>
    rw [append_cons, keepLatest]
    cases hold : held.lookup c.key with
    | none =>
      refine ih (h.insert fun b hb hkey => ?_)
      obtain ⟨a, ha⟩ := h.all b hb
      rw [hkey, hold] at ha
      cases ha
    | some old =>
      obtain ⟨hkey, hlatest⟩ := h.latest c.key old hold
      simp only []
      split_ifs with hdiff hlater
      · refine .inr ⟨⟨_, rfl⟩, old, ?_, c, ?_, hkey, hdiff.2, hdiff.1⟩
        · exact mem_append_left _ (mem_append_left _ hlatest.mem)
        · simp
      · refine ih (h.insert fun b hb hb' => ?_)
        exact (hlatest.top b hb (hb'.trans hkey.symm)).trans_lt hlater
      · exact ih (h.skip hold (by omega) fun htime => by grind)

/-! ### What is collected -/

/-- What a copy is of, its digest and when it was taken. -/
def facts (c : Copy) : CopyKey × String × Nat := (c.key, c.digest, c.takenAt)

theorem mem_inOrder {b : Bool} :
    c ∈ inOrder held b ↔ ∃ name, held.lookup (b, name) = some c := by
  simp only [inOrder, mem_filterMap, mem_insertionSort, mem_map, mem_filter, decide_eq_true_eq]
  constructor
  · rintro ⟨name, -, hc⟩
    exact ⟨name, hc⟩
  · rintro ⟨name, hc⟩
    have hin : (b, name) ∈ held.keys := AList.mem_keys.mp (AList.lookup_isSome.mp (by simp [hc]))
    exact ⟨name, ⟨_, ⟨hin, rfl⟩, rfl⟩, hc⟩

theorem Holds.copies_collected (h : Holds cs held) (lab : String) :
    (collected lab held).copies = inOrder held false ++ inOrder held true := by
  have hown : ∀ b, (inOrder held b).map (fun c => (⟨c.toArtefact, b⟩ : Copy)) =
      inOrder held b := by
    intro b
    refine (map_congr_left fun c hc => ?_).trans (map_id _)
    obtain ⟨name, hc⟩ := mem_inOrder.mp hc
    have hb : c.isRecord = b := congrArg Prod.fst (h.latest _ c hc).1
    rw [← hb]
    rfl
  simp only [StoredExport.copies, collected, map_map]
  exact congrArg₂ _ (hown false) (hown true)

theorem Holds.mem_collected (h : Holds cs held) {lab : String} :
    c ∈ (collected lab held).copies ↔ held.lookup c.key = some c := by
  rw [h.copies_collected, mem_append, mem_inOrder, mem_inOrder]
  constructor
  · rintro (⟨name, hc⟩ | ⟨name, hc⟩) <;> rwa [(h.latest _ c hc).1]
  · intro hc
    rcases hkey : c.key with ⟨_ | _, name⟩
    · exact .inl ⟨name, hkey ▸ hc⟩
    · exact .inr ⟨name, hkey ▸ hc⟩

/-- Of two tables made from the same copies, the first holds what the second does. -/
theorem Holds.lookup_facts (h : Holds cs held) (h' : Holds cs' held')
    (hsame : ∀ c, c ∈ cs ↔ c ∈ cs') {k : CopyKey} (hc : held.lookup k = some c) :
    ∃ c', held'.lookup k = some c' ∧ facts c = facts c' := by
  obtain ⟨hkey, hl⟩ := h.latest k c hc
  obtain ⟨c', hc'⟩ := h'.all c ((hsame c).mp hl.mem)
  rw [hkey] at hc'
  obtain ⟨hkey', hl'⟩ := h'.latest k c' hc'
  have heq : c.key = c'.key := hkey.trans hkey'.symm
  -- Each of the two is among the copies the other is a latest of.
  have htime : c.takenAt = c'.takenAt :=
    le_antisymm (hl'.top c ((hsame c).mp hl.mem) heq)
      (hl.top c' ((hsame c').mpr hl'.mem) heq.symm)
  have hdigest : c.digest = c'.digest := hl'.same c ((hsame c).mp hl.mem) heq htime
  exact ⟨c', hc', by rw [facts, heq, hdigest, htime]; rfl⟩

theorem Holds.facts_collected (h : Holds cs held) (h' : Holds cs' held')
    (hsame : ∀ c, c ∈ cs ↔ c ∈ cs') (lab : String) :
    (collected lab held).copies.map facts = (collected lab held').copies.map facts := by
  have hlook : ∀ k, (held.lookup k).map facts = (held'.lookup k).map facts := by
    intro k
    refine Option.ext fun x => ?_
    simp only [Option.map_eq_some_iff]
    constructor
    · rintro ⟨c, hc, rfl⟩
      obtain ⟨c', hc', heq⟩ := h.lookup_facts h' hsame hc
      exact ⟨c', hc', heq.symm⟩
    · rintro ⟨c, hc, rfl⟩
      obtain ⟨c', hc', heq⟩ := h'.lookup_facts h (fun c => (hsame c).symm) hc
      exact ⟨c', hc', heq.symm⟩
  have hkeys : held.keys ~ held'.keys := by
    rw [perm_ext_iff_of_nodup held.keys_nodup held'.keys_nodup]
    intro k
    rw [← AList.mem_keys, ← AList.mem_keys, ← AList.lookup_isSome, ← AList.lookup_isSome,
      ← Option.isSome_map, hlook, Option.isSome_map]
  have hown : ∀ b, (inOrder held b).map facts = (inOrder held' b).map facts := by
    intro b
    have hnames := (hkeys.filter (·.1 = b)).map (·.2)
    rw [inOrder, inOrder, map_filterMap, map_filterMap,
      Perm.eq_of_pairwise' (pairwise_insertionSort _ _) (pairwise_insertionSort _ _)
        ((perm_insertionSort (· ≤ ·) _).trans (hnames.trans (perm_insertionSort (· ≤ ·) _).symm))]
    exact filterMap_congr fun name _ => hlook (b, name)
  rw [h.copies_collected, h'.copies_collected, map_append, map_append, hown, hown]

/-- Whatever the nodes answer. A state that is found has of every artefact in the
    exports a copy taken last, which all copies of that time are like; so none is
    found where two of the last time differ. One is found if there are exports and no
    two copies of one time differ. And two orders in which one is found give the same
    artefacts with the same digests and times. -/
theorem findReplicaState_chooses (lab source : String)
    (answers : List (String × Except String StoredExport)) :
    (∀ out, findReplicaState lab source answers = .ok out →
      surviving source answers ≠ [] ∧ out.lab = lab ∧
        (∀ c ∈ out.copies, Latest (copies source answers) c) ∧
        ∀ c ∈ copies source answers, ∃ c' ∈ out.copies, c'.key = c.key) ∧
    (surviving source answers ≠ [] → ¬ Clash (copies source answers) →
      ∃ out, findReplicaState lab source answers = .ok out) ∧
    ∀ answers', surviving source answers' ~ surviving source answers → ∀ out out',
      findReplicaState lab source answers = .ok out →
      findReplicaState lab source answers' = .ok out' →
      out.copies.map facts = out'.copies.map facts := by
  have hstart : Holds [] (∅ : Table CopyKey Copy) := ⟨by simp, by simp⟩
  -- a state that is found is what the loop holds in the end
  have hfound : ∀ answers out, findReplicaState lab source answers = .ok out →
      surviving source answers ≠ [] ∧ ∃ held, Holds (copies source answers) held ∧
        out = collected lab held := by
    intro answers out h
    unfold findReplicaState at h
    split_ifs at h with hnone
    rcases keepLatest_cases (copies source answers) hstart with
      ⟨held, hrun, hheld⟩ | ⟨⟨err, hrun⟩, -⟩
    · rw [hrun] at h
      cases h
      exact ⟨hnone, held, hheld, rfl⟩
    · rw [hrun] at h
      cases h
  refine ⟨fun out h => ?_, fun hsome hagree => ?_, fun answers' hperm out out' h h' => ?_⟩
  · obtain ⟨hsome, held, hheld, rfl⟩ := hfound answers out h
    refine ⟨hsome, rfl, fun c hc => (hheld.latest _ _ (hheld.mem_collected.mp hc)).2,
      fun c hc => ?_⟩
    obtain ⟨c', hc'⟩ := hheld.all c hc
    have hkey := (hheld.latest _ c' hc').1
    exact ⟨c', hheld.mem_collected.mpr (hkey ▸ hc'), hkey⟩
  · unfold findReplicaState
    rw [if_neg hsome]
    rcases keepLatest_cases (copies source answers) hstart with ⟨held, hrun, -⟩ | ⟨-, hclash⟩
    · exact ⟨_, by rw [hrun]; rfl⟩
    · exact absurd hclash hagree
  · obtain ⟨-, held, hheld, rfl⟩ := hfound answers out h
    obtain ⟨-, held', hheld', rfl⟩ := hfound answers' out' h'
    exact hheld.facts_collected hheld' (fun c => (hperm.flatMap_right _).mem_iff.symm) lab

/-- A copy of the configuration of a router. -/
def routerCopy (digest : String) (takenAt : Nat) : Except String StoredExport :=
  .ok { lab := "lab", records := []
        snapshots := [{ lab := "lab", device := "as1/R1", kind := "frr", takenAt := takenAt
                        digest := digest, bytes := 0, content := [] }] }

/-- Two old copies that differ are found if they come before the latest, and not if
    they come after it. -/
theorem old_copies_refused_by_order :
    findReplicaState "lab" "n0"
        [("n1", routerCopy "a" 1), ("n2", routerCopy "b" 1), ("n3", routerCopy "c" 2)] =
      .error (.disagree (false, "as1/R1/frr") 1) ∧
    (findReplicaState "lab" "n0" [("n3", routerCopy "c" 2), ("n1", routerCopy "a" 1),
      ("n2", routerCopy "b" 1)]).toOption.map (·.snapshots.map (·.digest)) = some ["c"] := by
  decide +kernel

end Client

end Twinet
