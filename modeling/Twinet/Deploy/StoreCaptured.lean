import Twinet.Deploy.Node
import Twinet.Deploy.CaptureGuard
import Twinet.Lib.Keyed

/-!
# Storing What Was Captured

Everything a capture reads goes through one function into the store. It asks the
guard about every device first and then writes what may be written; a write that
fails is a problem, and a reading that is withheld is not.

Whoever removes a container next has to know the difference. A replacement
refuses on problems and on a namespace that could not be accounted for, and goes
ahead when the namespace is taken to have been replaced. It is taken to have been
replaced also when its identity could not be read, or when an earlier finding of
the same engine says so.

## Main definitions

* `storeCaptured`: Store readings through the guard.
* `captureBeforeReplace`: Read a container before it is replaced.
* `Preserved`: Every kind that was read is saved, or need not be.
* `Overlooked`: It is new, and is withheld for no good reason.

## Theorems

* `storeCaptured_stored`: What is in the store afterwards.
* `preserved_iff`: What was read of a device is preserved unless it was
  overlooked.
-/

namespace Twinet

namespace Deploy

open List Function

/-- What was read out of a container, each kind as a capture writes it. -/
abbrev Held := Kind → Option String

/-- The current saves of a lab, by device. -/
abbrev Store := String → Kind → Option String

/-- A container, and the device whose saved state its contents are. -/
structure Target where
  id : String
  container : String
deriving DecidableEq, Repr

/-- Why something is refused. -/
inductive Problem where
  /-- The recorded namespaces could not be read. -/
  | readRecord
  /-- Proven namespaces could not be recorded. -/
  | writeRecord
  | store (id : String) (k : Kind)
  | noStore (container : String)
  | noIdentifier (container : String)
  | capture (container : String)
  | unproven (container : String)
  | claimant (container : String)
  | unpreserved (container : String)
  | interrupted
deriving DecidableEq, Repr

/-- The parts of an engine a capture depends on, with what it has found about
    every device. -/
structure CaptureEngine where
  supportsNetnsIdentity : Bool
  observationReadOnly : Bool
  defaultRoot : Bool
  writesReference : Bool
  hasStore : Bool
  finding : String → Finding

/-- What becomes of every access of one store of captures. Identities, proofs
    and markers are those of a container, after it was read. -/
structure Outcomes where
  load : Access
  recorded : String → Option NetnsIdentity
  now : String → Option NetnsIdentity
  proven : String → Option NetnsIdentity
  /-- The guard got to the device before the capture was interrupted. -/
  reached : String → Bool
  marker : String → Bool
  answers : String → Bool
  save : Access
  put : String → Kind → Bool

section Store

variable (e : CaptureEngine) (o : Outcomes)

/-- An identity that was read. -/
def knownIdentity (n : Option NetnsIdentity) : Option NetnsIdentity := n.filter (·.known)

/-- The namespace on record for a device, if the record can be read. -/
def recordedNamespace (id : String) : Option NetnsIdentity :=
  if o.load = .ok then knownIdentity (o.recorded id) else none

/-- A lab run by hand never had the record of an agent, nor the privilege to
    make it. -/
def accessProblem (a : Access) (p : Problem) : List Problem :=
  if a = .ok || (a = .denied && e.defaultRoot) then [] else [p]

/-- What an engine has found about a device once the guard was asked. -/
def settledFinding (m : Finding) (t : Target) : Finding :=
  if o.reached t.container then
    (settleCaptureSafety m (recordedNamespace o t.id) (knownIdentity (o.now t.container))
      (knownIdentity (o.proven t.container))).1
  else { m with unprovenNamespace := true }

/-- Ask the guard about every device, and record what was proven. -/
def ensureCaptureSafety (recordBaselines : Bool) (targets : List Target) :
    (String → Finding) × List Problem :=
  if targets.isEmpty || !e.supportsNetnsIdentity then (e.finding, [])
  else
    (targets.foldl (fun m t => update m t.id (settledFinding o (m t.id) t)) e.finding,
      accessProblem e o.load .readRecord ++
        if e.observationReadOnly || !recordBaselines then []
        else accessProblem e o.save .writeRecord)

/-- The container was seen to carry the marker. -/
def seenMarker (t : Target) : Bool := o.answers t.container && o.marker t.container

/-- What of a reading may be written. -/
def storableSnapshots (m : Finding) (t : Target) (held : Held) : Held := fun k =>
  if namespaceBackedKind k && !storable m (seenMarker o t) then none else held k

/-- Write a reading. A write that fails leaves what was there. -/
def putAll (t : Target) (held : Held) (st : Store) : Store :=
  update st t.id fun k =>
    match held k with
    | some body => if o.put t.id k then some body else st t.id k
    | none => st t.id k

def putProblems (t : Target) (held : Held) : List Problem :=
  (allKinds.filter fun k => (held k).isSome && !o.put t.id k).map (.store t.id)

/-- The store, the findings and the problems after readings were stored. -/
structure Captured where
  store : Store
  finding : String → Finding
  problems : List Problem

/-- Store readings through the guard. -/
def storeCaptured (recordBaselines : Bool) (readings : List (Target × Held)) (st : Store) :
    Captured :=
  let safety := ensureCaptureSafety e o recordBaselines (readings.map (·.1))
  let kept := readings.map fun x => (x.1, storableSnapshots o (safety.1 x.1.id) x.1 x.2)
  { store := kept.foldl (fun st x => putAll o x.1 x.2 st) st
    finding := safety.1
    problems := safety.2 ++ kept.flatMap fun x => putProblems o x.1 x.2 }

/-- How the reading of a container ended. -/
inductive CaptureResult where
  | done
  | notRunning
  /-- Something could not be read. -/
  | failed
deriving DecidableEq, Repr

/-- What becomes of a replacement's own accesses: the reading, and where the
    container is found stopped, its start and the reading after it. -/
structure Replacement where
  target : Target
  studentOwned : Bool
  first : Held × CaptureResult
  starts : Bool
  second : Held × CaptureResult

variable (x : Replacement)

/-- The container was found stopped. -/
def Replacement.stopped : Bool := x.first.2 = .notRunning

/-- What was read of the container in the end. -/
def Replacement.reading : Held × CaptureResult :=
  if x.stopped then x.second else x.first

def markNamespaceStateLost (id : String) : CaptureEngine :=
  let found : Finding := { e.finding id with lostNamespaceState := true }
  { e with finding := update e.finding id found }

/-- A container that is started has lost what was in its namespace. -/
def Replacement.engine : CaptureEngine :=
  if x.stopped then markNamespaceStateLost e x.target.id else e

/-- Read a container before it is replaced: the store afterwards, or a refusal
    to replace it. -/
def captureBeforeReplace (st : Store) : Option Store :=
  if !x.studentOwned || e.writesReference then some st
  else if !e.hasStore then none
  else if x.stopped && !x.starts then none
  else if x.reading.2 ≠ .done then none
  else
    let stored := storeCaptured (x.engine e) o false [(x.target, x.reading.1)] st
    if stored.problems ≠ [] then none
    else if (stored.finding x.target.id).namespaceUnproven then none
    else some stored.store

end Store

/-! ### What is in the store -/

section Stored

variable {e : CaptureEngine} {o : Outcomes} {recordBaselines : Bool} {t : Target} {st : Store}
  {readings : List (Target × Held)} {held : Held}

/-- What the engine has found about a device after the guard was asked about
    it. -/
def findingAfter (e : CaptureEngine) (o : Outcomes) (t : Target) : Finding :=
  if e.supportsNetnsIdentity then settledFinding o (e.finding t.id) t else e.finding t.id

variable {id : String} {targets : List Target}

theorem ensureCaptureSafety_finding (hnodup : (targets.map (·.id)).Nodup) (ht : t ∈ targets) :
    (ensureCaptureSafety e o recordBaselines targets).1 t.id = findingAfter e o t := by
  have hne : targets.isEmpty = false := by
    cases targets with
    | nil => simp at ht
    | cons => rfl
  unfold ensureCaptureSafety findingAfter
  cases hs : e.supportsNetnsIdentity with
  | false => simp
  | true =>
    simp only [hne, Bool.not_true, Bool.or_self, Bool.false_eq_true, if_false, if_true]
    refine Keyed.foldl_of_mem (r := (·)) (g := Target.id) ?_ hnodup ht fun m hm => ?_
    · exact fun m x id hid => update_of_ne hid _ _
    · rw [update_self, hm]

theorem putAll_of_ne (h : id ≠ t.id) : putAll o t held st id = st id :=
  update_of_ne h _ _

variable {kept : List (Target × Held)}

theorem foldl_putAll_of_not_mem (h : id ∉ kept.map (·.1.id)) :
    kept.foldl (fun st x => putAll o x.1 x.2 st) st id = st id := by
  exact Keyed.foldl_of_not_mem (r := (·)) (fun _ _ _ => putAll_of_ne) h st

theorem putAll_self (h : putProblems o t held = []) (k : Kind) :
    putAll o t held st t.id k = (held k).or (st t.id k) := by
  rw [putAll, update_self]
  cases hk : held k with
  | none => rfl
  | some body =>
    have hput : o.put t.id k = true := by
      by_contra hne
      have hmem : k ∈ allKinds.filter (fun k => (held k).isSome && !o.put t.id k) :=
        mem_filter.mpr ⟨mem_allKinds k, by simp [hk, hne]⟩
      rw [putProblems, map_eq_nil_iff] at h
      nomatch h ▸ hmem
    simp [hput]

theorem foldl_putAll (hnodup : (kept.map (·.1.id)).Nodup)
    (hok : ∀ x ∈ kept, putProblems o x.1 x.2 = []) (hmem : (t, held) ∈ kept) (k : Kind) :
    kept.foldl (fun st x => putAll o x.1 x.2 st) st t.id k = (held k).or (st t.id k) := by
  refine Keyed.foldl_of_mem (r := fun (st : Store) id => st id k) (g := fun x => x.1.id) ?_
    hnodup hmem fun st' hst => ?_
  · exact fun _ _ _ hid => congrFun (putAll_of_ne hid) k
  · rw [putAll_self (hok _ hmem), hst]

/-- What is in the store after readings of distinct devices were stored without
    a problem. -/
theorem storeCaptured_stored (hnodup : (readings.map (·.1.id)).Nodup)
    (hok : (storeCaptured e o recordBaselines readings st).problems = [])
    (hmem : (t, held) ∈ readings) (k : Kind) :
    (storeCaptured e o recordBaselines readings st).store t.id k =
      (storableSnapshots o (findingAfter e o t) t held k).or (st t.id k) := by
  have hids : ((readings.map (·.1)).map (·.id)).Nodup := by
    simpa [map_map, comp_def] using hnodup
  have hfind : ∀ x ∈ readings, (ensureCaptureSafety e o recordBaselines (readings.map (·.1))).1
      x.1.id = findingAfter e o x.1 :=
    fun x hx => ensureCaptureSafety_finding hids (mem_map_of_mem hx)
  simp only [storeCaptured, append_eq_nil_iff, flatMap_eq_nil_iff] at hok ⊢
  refine foldl_putAll ?_ hok.2 ?_ k
  · simpa [map_map, comp_def] using hnodup
  · rw [← hfind _ hmem]
    exact mem_map_of_mem hmem

theorem storeCaptured_other (h : id ∉ readings.map (·.1.id)) :
    (storeCaptured e o recordBaselines readings st).store id = st id := by
  refine foldl_putAll_of_not_mem ?_
  simpa [map_map, comp_def] using h

end Stored

/-! ### What was read is preserved -/

section Preserved

variable (canonicalState : Kind → String → String) (e : CaptureEngine) (o : Outcomes) (t : Target)

/-- The canonical form of what is saved or held of a kind; nothing and an empty
    snapshot are the same. -/
def canonicalBody (k : Kind) (body : Option String) : String :=
  (body.map (canonicalState k)).getD ""

/-- What is in the namespace of the container is known not to be the student's
    work: the container was stopped, it carries the marker, or its namespace was
    read to be another than the recorded one. -/
def Excused (stopped : Bool) : Prop :=
  stopped = true ∨ o.marker t.container = true ∨
    ∃ n m, recordedNamespace o t.id = some n ∧ knownIdentity (o.now t.container) = some m ∧ m ≠ n

/-- Every kind that was read is saved, or need not be. -/
def Preserved (stopped : Bool) (held : Held) (st : Store) : Prop :=
  ∀ k body, held k = some body →
    canonicalBody canonicalState k (st t.id k) = canonicalBody canonicalState k (some body) ∨
      (namespaceBackedKind k = true ∧ Excused o t stopped)

/-- The identity of a namespace that is on record could not be read. -/
def Unidentified : Prop :=
  e.supportsNetnsIdentity = true ∧ o.reached t.container = true ∧
    recordedNamespace o t.id ≠ none ∧ knownIdentity (o.now t.container) = none

/-- The namespace is another than the one on record. -/
def Changed : Prop :=
  e.supportsNetnsIdentity = true ∧ o.reached t.container = true ∧
    ∃ n m, recordedNamespace o t.id = some n ∧ knownIdentity (o.now t.container) = some m ∧ m ≠ n

/-- The engine takes the namespace to have been replaced without having seen
    another one: it did so before, it owes the device a replay, or the identity
    could not be read. -/
def Doubted : Prop :=
  (e.finding t.id).lostNamespaceState = true ∨ (e.finding t.id).pendingRestore = true ∨
    Unidentified e o t

/-- What was read in the namespace is not written. -/
def Withheld : Prop :=
  Doubted e o t ∨ seenMarker o t = true ∨ Changed e o t

/-- Something was read in the namespace that is not what is saved. -/
def HoldsNews (held : Held) (st : Store) : Prop :=
  ∃ k body, namespaceBackedKind k = true ∧ held k = some body ∧
    canonicalBody canonicalState k (st t.id k) ≠ canonicalBody canonicalState k (some body)

/-- What was read is new, and is withheld for no good reason. -/
def Overlooked (stopped : Bool) (held : Held) (st : Store) : Prop :=
  Doubted e o t ∧ ¬ Excused o t stopped ∧ HoldsNews canonicalState t held st

end Preserved

section PreservedIff

variable {canonicalState : Kind → String → String} {e : CaptureEngine} {o : Outcomes} {t : Target}
  {st : Store} {held : Held}

theorem storable_eq_false_iff (hproven : (findingAfter e o t).namespaceUnproven = false) :
    storable (findingAfter e o t) (seenMarker o t) = false ↔ Withheld e o t := by
  have hpending : (findingAfter e o t).pendingRestore = (e.finding t.id).pendingRestore := by
    unfold findingAfter settledFinding settleCaptureSafety
    repeat' split
    all_goals rfl
  have hlost : (findingAfter e o t).lostNamespaceState = true ↔
      (e.finding t.id).lostNamespaceState = true ∨ Unidentified e o t ∨ Changed e o t := by
    unfold findingAfter settledFinding at hproven ⊢
    unfold Unidentified Changed
    cases hs : e.supportsNetnsIdentity with
    | false => simp
    | true =>
      cases hr : o.reached t.container with
      | false => simp
      | true =>
        simp only [hs, hr, if_true, true_and] at hproven ⊢
        revert hproven
        generalize recordedNamespace o t.id = recorded
        generalize knownIdentity (o.now t.container) = now
        fun_cases settleCaptureSafety (e.finding t.id) recorded now
          (knownIdentity (o.proven t.container)) with
        | case1 _ _ hold =>
          -- The engine has decided before.
          intro hn
          simp_all
        | case5 => cases now <;> simp_all
        | _ => simp_all
  rw [storable, hproven, Withheld, Doubted, ← Bool.not_eq_true]
  simp only [Bool.not_false, Bool.and_true, Bool.and_eq_true, Bool.not_eq_true', not_and_or,
    Bool.not_eq_false, Bool.or_eq_true, hlost, hpending]
  tauto

theorem withheld_iff_doubted (hex : ¬ Excused o t false) : Withheld e o t ↔ Doubted e o t := by
  refine ⟨fun h => ?_, .inl⟩
  rcases h with h | h | ⟨-, -, h⟩
  · exact h
  · rw [seenMarker, Bool.and_eq_true] at h
    exact absurd (.inr (.inl h.2)) hex
  · exact absurd (.inr (.inr h)) hex

/-- What was read of a device and stored without a problem is preserved unless
    it was overlooked. -/
theorem preserved_iff {st' : Store} (stopped : Bool)
    (hproven : (findingAfter e o t).namespaceUnproven = false)
    (hstore : ∀ k, st' t.id k = (storableSnapshots o (findingAfter e o t) t held k).or
      (st t.id k)) :
    Preserved canonicalState o t stopped held st' ↔
      ¬ Overlooked canonicalState e o t stopped held st := by
  by_cases hex : Excused o t stopped
  · -- Only what is on the filesystem has to be saved, and it is.
    refine iff_of_true (fun k body hk => ?_) (fun hover => hover.2.1 hex)
    cases hns : namespaceBackedKind k with
    | true => exact .inr ⟨rfl, hex⟩
    | false =>
      left
      rw [hstore, storableSnapshots, hns]
      simp [hk]
  · have hex' : ¬ Excused o t false := fun h => hex (by
      rcases h with h | h
      · nomatch h
      · exact .inr h)
    have hwithheld := (storable_eq_false_iff hproven).trans (withheld_iff_doubted hex')
    constructor
    · rintro hpres ⟨hdoubt, -, k, body, hns, hk, hne⟩
      rcases hpres k body hk with heq | ⟨-, hexcused⟩
      · rw [hstore, storableSnapshots, hns, hwithheld.mpr hdoubt] at heq
        exact hne heq
      · exact hex hexcused
    · intro hover k body hk
      left
      rw [hstore, storableSnapshots]
      cases hns : namespaceBackedKind k with
      | false => simp [hk]
      | true =>
        cases hst : storable (findingAfter e o t) (seenMarker o t) with
        | true => simp [hk]
        | false =>
          simp only [Bool.not_false, Bool.and_self, if_true, Option.none_or]
          by_contra hne
          exact hover ⟨hwithheld.mp hst, hex, k, body, hns, hk, hne⟩

theorem replaced_preserved_iff {x : Replacement} {st' : Store} (hstudent : x.studentOwned = true)
    (href : e.writesReference = false) (h : captureBeforeReplace e o x st = some st') :
    Preserved canonicalState o x.target x.stopped x.reading.1 st' ↔
      ¬ Overlooked canonicalState e o x.target x.stopped x.reading.1 st := by
  simp only [captureBeforeReplace, hstudent, href, Bool.not_true, Bool.or_self,
    Bool.false_eq_true, if_false] at h
  split_ifs at h with _ _ _ hok hunproven
  have hone : ([(x.target, x.reading.1)].map (·.1.id)).Nodup := nodup_singleton _
  have hproven : (findingAfter (x.engine e) o x.target).namespaceUnproven = false := by
    have hfind : (ensureCaptureSafety (x.engine e) o false [x.target]).1 x.target.id =
        findingAfter (x.engine e) o x.target :=
      ensureCaptureSafety_finding (nodup_singleton _) (mem_singleton_self _)
    rw [← hfind]
    exact Bool.not_eq_true _ ▸ hunproven
  have hstore := storeCaptured_stored hone (not_not.mp hok) (mem_singleton_self _)
  rw [Option.some.inj h] at hstore
  rw [preserved_iff x.stopped hproven hstore]
  cases hs : x.stopped with
  | true => exact iff_of_true (fun h => h.2.1 (.inl rfl)) (fun h => h.2.1 (.inl rfl))
  | false => simp [Replacement.engine, hs]

end PreservedIff

end Deploy

end Twinet
