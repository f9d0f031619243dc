import Twinet.Lib.Delta
import Twinet.Lib.Machine

/-!
# Injected Faults

A fault is injected into a device, verified, recorded in a ledger and later
resolved. Before and after an injection the configuration of the device is read,
and the record says which lines the injection added and which it took away. A
fault is resolved when its undo has run, its symptom is gone, and none of the
lines it added is there and none of those it took away is missing.

That is less than the device being as it was. A record can be incomplete, when
one of the two readings failed; then nothing is compared. Lines are compared
without regard to the section they are in. An undo can change lines its
injection did not. And the record of one fault may name as missing a line that
another had added: if the other is resolved first, the line comes back with the
one resolved last.

What an injection and an undo do to a device is left open here: a run says what
the device holds after each of them, and how every access ends.

## Main definitions

* `inject`, `resolve`: An injection and a resolution.
* `faults`: Both as actions on a device with its ledger.
* `Tidy`: The condition on a run.
* `AsFound`: The device is as it was.

## Theorems

* `resolve_undoes`: A resolution that succeeds undoes what was recorded.
* `unwound_step`: What is left when everything recorded is undone stays the same.
* `resolved_as_found`: When every fault of a tidy run is resolved, the device is
  as it was.
-/

namespace Twinet

namespace Fault

open List Option

/-- The lines of a device, by section. -/
abbrev Fingerprint := List (List String)

/-- The lines, whatever section they are in. -/
def splitLines (fp : Fingerprint) : List String := fp.flatten

/-- A line is in a section. -/
def Fingerprint.has (fp : Fingerprint) (i : Nat) (l : String) : Prop := l ∈ fp.getD i []

instance (fp : Fingerprint) (i : Nat) (l : String) : Decidable (fp.has i l) :=
  inferInstanceAs (Decidable (_ ∈ _))

def delta (before after : Fingerprint) : Delta String :=
  Delta.between (splitLines before) (splitLines after)

/-- The lines of a record that are not as they were: those still there, and those
    still missing. -/
def residue (r : Delta String) (now : Fingerprint) : List String × List String :=
  (r.added.filter (· ∈ splitLines now), r.removed.filter (· ∉ splitLines now))

/-- The part of an injection's record that resolving reads. A record without a
    version is not compared. -/
structure Injection where
  change : Delta String
  versioned : Bool
deriving DecidableEq, Repr

/-- A record for which one of the readings failed. -/
def Injection.unread : Injection := { change := { added := [], removed := [] }, versioned := false }

inductive Verdict where
  | failed
  | present
  | absent
deriving DecidableEq, Repr

/-- What the parts of an injection do to the device, and how its accesses end. A
    reading that failed is missing; one that was cut short may be anything. -/
structure InjectOutcome where
  /-- The fault is known, applies to the device and is not there already. -/
  allowed : Bool
  base : Option Fingerprint
  exempted : Bool
  injected : Fingerprint
  works : Bool
  /-- A failed injection says what it had changed. -/
  leavesState : Bool
  after : Option Fingerprint
  verified : Fingerprint
  verdict : Verdict
  rolledBack : Fingerprint
  rollsBack : Bool
deriving DecidableEq, Repr

/-- What an injection that took effect records. -/
def InjectOutcome.record (o : InjectOutcome) : Injection :=
  match o.base, o.after with
  | some base, some after => { change := delta base after, versioned := true }
  | _, _ => .unread

/-- Inject a fault: the device afterwards, and what is recorded of it. -/
def inject (o : InjectOutcome) (device : Fingerprint) : Fingerprint × Option Injection :=
  if !o.allowed || !o.exempted then (device, none)
  else if !o.works then
    if !o.leavesState then (o.injected, none)
    else (o.rolledBack, if o.rollsBack then none else some .unread)
  else if o.verdict = .present then (o.verified, some o.record)
  else (o.rolledBack, if o.rollsBack then none else some o.record)

/-- What the parts of a resolution do to the device, and how its accesses end. -/
structure ResolveOutcome where
  undone : Fingerprint
  reachable : Bool
  verified : Fingerprint
  verdict : Verdict
  now : Option Fingerprint
  /-- The device after the fault's own baseline was checked, if it has one. -/
  checked : Fingerprint
  atBaseline : Bool
  unexempted : Bool
deriving DecidableEq, Repr

/-- The device is compared with the record, if there is anything to compare. -/
def leftAsFound (inj : Injection) (now : Option Fingerprint) : Bool :=
  if !inj.versioned || (inj.change.added = [] && inj.change.removed = []) then true
  else now.any fun now => residue inj.change now = ([], [])

/-- Resolve a fault: the device afterwards, and whether it succeeded. What the
    undo itself reports does not count. -/
def resolve (inj : Injection) (o : ResolveOutcome) : Fingerprint × Bool :=
  if !o.reachable then (o.undone, false)
  else if o.verdict ≠ .absent then (o.verified, false)
  else if !leftAsFound inj o.now then (o.verified, false)
  else (o.checked, o.atBaseline && o.unexempted)

/-- A device, and the ledger of what was injected into it, oldest first. -/
structure Bench where
  device : Fingerprint
  ledger : List Injection
deriving DecidableEq, Repr

inductive FaultAction where
  | inject (o : InjectOutcome)
  /-- Resolve one entry of the ledger. -/
  | resolve (n : Nat) (o : ResolveOutcome)
deriving DecidableEq, Repr

inductive FaultEvent where
  /-- An injection changed the device. -/
  | injected (before after : Fingerprint)
  | resolved (ok : Bool)
deriving DecidableEq, Repr

/-- One injection or resolution. An entry that is resolved leaves the ledger. -/
def faultStep (s : Bench) : FaultAction → Bench × List FaultEvent
  | .inject o =>
    let (device, recorded) := inject o s.device
    ({ device := device, ledger := s.ledger ++ recorded.toList },
      if o.allowed && o.exempted then [.injected s.device o.injected] else [])
  | .resolve n o =>
    match s.ledger[n]? with
    | none => (s, [])
    | some inj =>
      let (device, ok) := resolve inj o
      ({ device := device, ledger := if ok then s.ledger.eraseIdx n else s.ledger },
        [.resolved ok])

def faults : Machine Bench FaultAction FaultEvent := ⟨faultStep⟩

/-! ### Tidy runs -/

/-- Every line belongs to one section, whichever device content it is in. -/
def Filed (sectionOf : String → Nat) (fp : Fingerprint) : Prop :=
  ∀ i l, fp.has i l → i = sectionOf l

/-- Two contents have the same lines. -/
def SameLines (fp fp' : Fingerprint) : Prop := ∀ l, l ∈ splitLines fp ↔ l ∈ splitLines fp'

/-- The device is read in full on both sides of an injection that takes effect
    and stays as it was when one does not. A resolution changes the lines of its
    own record only, is read in full, and comes after that of every later
    injection with a line in common. -/
def Tidy (sectionOf : String → Nat) (s : Bench) : FaultAction → Prop
  | .inject o =>
    Filed sectionOf (inject o s.device).1 ∧
      ((inject o s.device).2 = none ∧ SameLines (inject o s.device).1 s.device ∨
        (inject o s.device).2 = some o.record ∧ SameLines (inject o s.device).1 o.injected ∧
          o.base = some s.device ∧ o.after = some o.injected)
  | .resolve n o =>
    ∀ inj, s.ledger[n]? = some inj →
      Filed sectionOf (resolve inj o).1 ∧
        (∀ l, ¬ inj.change.Touches l →
          (l ∈ splitLines (resolve inj o).1 ↔ l ∈ splitLines s.device)) ∧
        (∀ now, o.now = some now → SameLines now (resolve inj o).1) ∧
        ∀ inj' ∈ s.ledger.drop (n + 1), Delta.Apart inj.change inj'.change

/-- In every section the device holds every line it held before the first
    injection, and no line that an injection had added. -/
def AsFound (start : Fingerprint) (events : List FaultEvent) (device : Fingerprint) : Prop :=
  ∀ i l, (start.has i l → device.has i l) ∧
    (¬ start.has i l → ∀ before after, .injected before after ∈ events →
      ¬ before.has i l → after.has i l → ¬ device.has i l)

section Lemmas

variable {sectionOf : String → Nat} {fp fp' : Fingerprint} {inj : Injection} {s : Bench}

theorem mem_splitLines {l : String} : l ∈ splitLines fp ↔ ∃ i, fp.has i l := by
  simp only [splitLines, mem_flatten, Fingerprint.has]
  constructor
  · rintro ⟨sec, hsec, hl⟩
    obtain ⟨i, hi, rfl⟩ := getElem_of_mem hsec
    exact ⟨i, by simpa [hi] using hl⟩
  · rintro ⟨i, hl⟩
    by_cases hi : i < fp.length
    · exact ⟨fp[i], getElem_mem hi, by simpa [hi] using hl⟩
    · simp [hi] at hl

theorem Filed.has_iff (h : Filed sectionOf fp) (h' : Filed sectionOf fp') (heq : SameLines fp fp')
    (i : Nat) (l : String) : fp.has i l ↔ fp'.has i l := by
  have hone : ∀ {fp fp' : Fingerprint}, Filed sectionOf fp → Filed sectionOf fp' →
      SameLines fp fp' → fp.has i l → fp'.has i l := by
    intro fp fp' h h' heq hl
    obtain ⟨j, hj⟩ := mem_splitLines.mp ((heq l).mp (mem_splitLines.mpr ⟨i, hl⟩))
    rw [h i l hl, ← h' j l hj]
    exact hj
  exact ⟨hone h h' heq, hone h' h fun l => (heq l).symm⟩

/-- Membership of a line. -/
def lineTest (fp : Fingerprint) : String → Bool := (decide <| · ∈ splitLines fp)

theorem lineTest_congr (h : SameLines fp fp') : lineTest fp = lineTest fp' :=
  funext fun l => decide_eq_decide.mpr (h l)

theorem sameLines_of_lineTest (h : lineTest fp = lineTest fp') : SameLines fp fp' :=
  fun l => decide_eq_decide.mp (congrFun h l)

theorem residue_eq_nil {r : Delta String} (h : residue r fp = ([], [])) :
    (∀ l ∈ r.added, l ∉ splitLines fp) ∧ ∀ l ∈ r.removed, l ∈ splitLines fp := by
  simp only [residue, Prod.mk.injEq, filter_eq_nil_iff, decide_eq_true_eq, not_not] at h
  exact h

/-- A resolution that succeeds, and changes the lines of its own record only,
    undoes what was recorded. -/
theorem resolve_undoes {o : ResolveOutcome} {device : Fingerprint}
    (hversion : inj.versioned = true) (hok : (resolve inj o).2 = true)
    (hown : ∀ l, ¬ inj.change.Touches l →
      (l ∈ splitLines (resolve inj o).1 ↔ l ∈ splitLines device))
    (hread : ∀ now, o.now = some now → SameLines now (resolve inj o).1)
    (hdelta : ∀ l ∈ inj.change.removed, l ∉ inj.change.added) :
    lineTest (resolve inj o).1 = inj.change.undo (lineTest device) := by
  have hfound : leftAsFound inj o.now = true := by
    unfold resolve at hok
    by_contra hno
    rw [Bool.not_eq_true] at hno
    simp only [hno, Bool.not_false, if_true] at hok
    split_ifs at hok
  funext l
  by_cases ht : inj.change.Touches l
  swap
  · rw [Delta.undo_of_not_touches ht]
    exact decide_eq_decide.mpr (hown l ht)
  -- There was something to compare, so it was compared.
  have hsome : (inj.change.added = [] && inj.change.removed = []) = false := by
    rcases ht with ht | ht
    · simp [ne_nil_of_mem ht]
    · simp [ne_nil_of_mem ht]
  simp only [leftAsFound, hversion, hsome, Bool.not_true, Bool.or_self, Bool.false_eq_true,
    if_false] at hfound
  obtain ⟨now, hnow, hres⟩ := (any_eq_true _ _).mp hfound
  obtain ⟨hadded, hremoved⟩ := residue_eq_nil (of_decide_eq_true hres)
  have hsame := hread now hnow
  rcases ht with ht | ht
  · rw [Delta.undo, if_pos ht]
    exact decide_eq_false fun hl => hadded l ht ((hsame l).mpr hl)
  · rw [Delta.undo, if_neg (hdelta l ht), if_pos ht]
    exact decide_eq_true ((hsame l).mp (hremoved l ht))

/-- What holds of a bench in a tidy run that started with a given content. -/
structure Unwound (sectionOf : String → Nat) (start : Fingerprint) (s : Bench) : Prop where
  filed : Filed sectionOf s.device
  versioned : ∀ inj ∈ s.ledger, inj.versioned = true ∧
    ∀ l ∈ inj.change.removed, l ∉ inj.change.added
  unwind : Delta.unwind (s.ledger.map (·.change)) (lineTest s.device) = lineTest start

variable {start : Fingerprint}

/-- A tidy action does not change what undoing everything gives. -/
theorem unwound_step {a : FaultAction} (hs : Unwound sectionOf start s) (ha : Tidy sectionOf s a)
    (hok : .resolved false ∉ (faultStep s a).2) : Unwound sectionOf start (faultStep s a).1 := by
  cases a with
  | inject o =>
    obtain ⟨hfiled, ⟨hnone, hsame⟩ | ⟨hsome, hsame, hbase, hafter⟩⟩ := ha
    · refine ⟨hfiled, ?_, ?_⟩
      · simpa [faultStep, hnone] using hs.versioned
      · simp only [faultStep, hnone, toList_none, append_nil]
        rw [lineTest_congr hsame, hs.unwind]
    · have hrec : o.record = { change := delta s.device o.injected, versioned := true } := by
        simp [InjectOutcome.record, hbase, hafter]
      refine ⟨hfiled, fun inj hinj => ?_, ?_⟩
      · simp only [faultStep, hsome, toList_some, mem_append,
          mem_singleton] at hinj
        rcases hinj with hinj | rfl
        · exact hs.versioned inj hinj
        · rw [hrec]
          refine ⟨rfl, fun l hl hl' => ?_⟩
          simp only [delta, Delta.between, mem_filter, decide_eq_true_eq] at hl hl'
          exact hl'.2 hl.1
      · simp only [faultStep, hsome, toList_some, map_append, map_cons,
          map_nil]
        rw [lineTest_congr hsame, hrec, Delta.unwind, foldr_append]
        simp only [foldr_cons, foldr_nil]
        have hundo : (delta s.device o.injected).undo (lineTest o.injected) = lineTest s.device :=
          Delta.undo_between _ _
        rw [hundo]
        exact hs.unwind
  | resolve n o =>
    cases hn : s.ledger[n]? with
    | none => simpa [faultStep, hn] using hs
    | some inj =>
      obtain ⟨hfiled, hown, hread, hnewer⟩ := ha inj hn
      have hok' : (resolve inj o).2 = true := by
        by_contra hno
        rw [Bool.not_eq_true] at hno
        exact hok (by simp [faultStep, hn, hno])
      have hmem : inj ∈ s.ledger := mem_of_getElem? hn
      have hundoes := resolve_undoes (hs.versioned inj hmem).1 hok' hown hread
        (hs.versioned inj hmem).2
      -- The entry stands between older and newer ones.
      obtain ⟨hlt, hget⟩ := List.getElem?_eq_some_iff.mp hn
      have hsplit : s.ledger = s.ledger.take n ++ inj :: s.ledger.drop (n + 1) := by
        rw [← hget, getElem_cons_drop, take_append_drop]
      have herase : s.ledger.eraseIdx n = s.ledger.take n ++ s.ledger.drop (n + 1) :=
        eraseIdx_eq_take_drop_succ _ _
      refine ⟨by simpa [faultStep, hn] using hfiled, fun inj' hinj' => ?_, ?_⟩
      · simp only [faultStep, hn, hok', if_true] at hinj'
        exact hs.versioned inj' (mem_of_mem_eraseIdx hinj')
      · simp only [faultStep, hn, hok', if_true]
        rw [herase, map_append, hundoes, Delta.unwind_middle, ← map_cons,
          ← map_append, ← hsplit, hs.unwind]
        intro r hr
        obtain ⟨inj', hinj', rfl⟩ := mem_map.mp hr
        exact hnewer inj' hinj'

theorem unwound_run {as : List FaultAction} (hs : Unwound sectionOf start s)
    (htidy : faults.Along (Tidy sectionOf) s as) (hnil : .resolved false ∉ faults.trace s as) :
    Unwound sectionOf start (faults.run s as) := by
  induction as generalizing s with
  | nil => exact hs
  | cons a as ih =>
    rw [Machine.trace, mem_append, not_or] at hnil
    exact ih (unwound_step hs htidy.1 hnil.1) htidy.2 hnil.2

end Lemmas

/-- When every fault of a tidy run is resolved, the device is as it was found. -/
theorem resolved_as_found (sectionOf : String → Nat) (start : Fingerprint)
    (as : List FaultAction) (hstart : Filed sectionOf start)
    (htidy : faults.Along (Tidy sectionOf) ⟨start, []⟩ as)
    (hnil : .resolved false ∉ faults.trace ⟨start, []⟩ as)
    (hall : (faults.run ⟨start, []⟩ as).ledger = []) :
    AsFound start (faults.trace ⟨start, []⟩ as) (faults.run ⟨start, []⟩ as).device := by
  have hend := unwound_run ⟨hstart, by simp, rfl⟩ htidy hnil
  have hsame : SameLines (faults.run ⟨start, []⟩ as).device start := by
    have hunwind := hend.unwind
    rw [hall] at hunwind
    exact sameLines_of_lineTest hunwind
  intro i l
  rw [hend.filed.has_iff hstart hsame]
  exact ⟨id, fun hno _ _ _ _ _ => hno⟩

/-! ### Two runs -/

/-- An interface whose packet size faults change. -/
def mtu (size : String) : Fingerprint := [["eth0 mtu " ++ size]]

/-- An injection that goes well. -/
def setMtu (before after : String) : FaultAction :=
  .inject
    { allowed := true, base := some (mtu before), exempted := true, injected := mtu after
      works := true, leavesState := true, after := some (mtu after), verified := mtu after
      verdict := .present, rolledBack := mtu before, rollsBack := true }

/-- A resolution in which everything goes well and the undo puts back what its
    injection found. -/
def resetMtu (n : Nat) (size : String) : FaultAction :=
  .resolve n
    { undone := mtu size, reachable := true, verified := mtu size, verdict := .absent
      now := some (mtu size), checked := mtu size, atBaseline := true, unexempted := true }

/-- Two faults change the same setting, and the last is resolved first. -/
def lastFirst : List FaultAction :=
  [setMtu "1500" "9000", setMtu "9000" "1200", resetMtu 1 "9000", resetMtu 0 "1500"]

/-- The first is resolved first. -/
def firstFirst : List FaultAction :=
  [setMtu "1500" "9000", setMtu "9000" "1200", resetMtu 0 "1500", resetMtu 0 "9000"]

theorem filed_mtu (size : String) : Filed (fun _ => 0) (mtu size) := by
  intro i l hl
  cases i with
  | zero => rfl
  | succ i => simp [mtu, Fingerprint.has] at hl

theorem tidy_resetMtu (now : String) {s : Bench} {n : Nat} {size : String}
    (hdevice : s.device = mtu now)
    (hn : s.ledger[n]? = some { change := delta (mtu size) (mtu now), versioned := true })
    (hnewer : s.ledger.drop (n + 1) = []) : Tidy (fun _ => 0) s (resetMtu n size) := by
  intro inj hinj
  obtain rfl := some.inj (hn.symm.trans hinj)
  generalize ho : (ResolveOutcome.mk _ _ _ _ _ _ _ _) = o
  have hafter : (resolve { change := delta (mtu size) (mtu now), versioned := true } o).1 =
      mtu size := by
    rw [← ho]
    unfold resolve
    split_ifs <;> rfl
  rw [hafter, hdevice, hnewer]
  refine ⟨filed_mtu size, fun l hl => ?_, ?_, by simp⟩
  · simp only [delta, Delta.Touches, Delta.between, mem_filter, decide_eq_true_eq] at hl
    tauto
  · rw [← ho]
    rintro _ ⟨⟩ l
    exact Iff.rfl

/-- Resolved last first, the setting is as it was. -/
theorem last_first_as_found :
    AsFound (mtu "1500") (faults.trace ⟨mtu "1500", []⟩ lastFirst)
      (faults.run ⟨mtu "1500", []⟩ lastFirst).device := by
  refine resolved_as_found (fun _ => 0) (mtu "1500") lastFirst (filed_mtu _) ?_
    (by decide +kernel) (by decide +kernel)
  exact ⟨⟨filed_mtu _, .inr ⟨rfl, fun _ => Iff.rfl, rfl, rfl⟩⟩,
    ⟨filed_mtu _, .inr ⟨rfl, fun _ => Iff.rfl, rfl, rfl⟩⟩,
    tidy_resetMtu "1200" (by decide +kernel) (by decide +kernel) (by decide +kernel),
    tidy_resetMtu "9000" (by decide +kernel) (by decide +kernel) (by decide +kernel), trivial⟩

/-- Resolved first first, every resolution succeeds, the old setting is gone and
    the one the first fault made is back. -/
theorem first_first_left :
    let s := faults.run ⟨mtu "1500", []⟩ firstFirst
    .resolved false ∉ faults.trace ⟨mtu "1500", []⟩ firstFirst ∧ s.ledger = [] ∧
      ¬ AsFound (mtu "1500") (faults.trace ⟨mtu "1500", []⟩ firstFirst) s.device := by
  refine ⟨by decide +kernel, by decide +kernel, fun hfound => ?_⟩
  exact absurd ((hfound 0 "eth0 mtu 1500").1 (by decide +kernel)) (by decide +kernel)

end Fault

end Twinet
