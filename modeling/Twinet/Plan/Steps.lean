import Mathlib.Data.List.Sort
import Mathlib.Data.String.Basic
import Twinet.Lib.DepthFirst

/-!
# Plans

Steps that wait for each other. A plan is accepted when every step that is waited
for exists, no step waits for itself in the end, and none waits for one of a
later stage. Part of a plan is some of its steps with all they wait for.

## Main definitions

* `Plan`: Steps with a name each.
* `Plan.validate`: The check before a plan is run.
* `Plan.restrict`: The chosen steps and all they wait for.

## Theorems

* `Plan.validate_iff`: What an accepted plan is.
* `Plan.validate_cycle_and_restrict`: What is reported of a cycle, and what a
  choice of steps leaves of an accepted plan.
-/

namespace Twinet

namespace Plan

/-- The part of a deployment a step belongs to: a text, of which five are known. -/
inductive Stage where
  | image
  | create
  | wire
  | configure
  | ready
  | other (name : String)
deriving DecidableEq, Repr

/-- The place in the usual order. A stage that is not known counts as the first. -/
def Stage.rank : Stage → Nat
  | other _ => 0
  | image => 0
  | create => 1
  | wire => 2
  | configure => 3
  | ready => 4

/-- One unit of work. What it does is up to the environment. -/
structure Step where
  id : String
  stage : Stage
  scope : String
  describe : String
  needs : List String
  optional : Bool
deriving DecidableEq, Repr

end Plan

/-- Steps in the order they were added. Every one has a name of its own. -/
structure Plan where
  steps : List Plan.Step
  named : ∀ s ∈ steps, s.id ≠ ""
  distinct : (steps.map Plan.Step.id).Nodup

namespace Plan

/-- Why a plan is not accepted. -/
inductive Invalid where
  | dangling (missing : List String)
  | cycle (path : List String)
  | later (id : String) (stage : Stage) (need : String) (needStage : Stage)
deriving DecidableEq, Repr

variable (p : Plan)

def step (id : String) : Option Step := p.steps.find? fun s => s.id = id

/-- What the step of that name waits for. -/
def needs (id : String) : List String := ((p.step id).map Step.needs).getD []

/-- What is waited for and does not exist. -/
def missing : List String :=
  p.steps.flatMap fun s => (s.needs.filter fun n => p.step n = none).map fun n =>
    s.id ++ " needs " ++ n ++ ", which does not exist"

def findCycle : Option (List String) :=
  DepthFirst.findCycle p.needs ((p.steps.map Step.id).insertionSort (· ≤ ·))

/-- The first step that waits for one of a later stage. -/
def laterStage : Option Invalid :=
  p.steps.findSome? fun s => s.needs.findSome? fun need =>
    (p.step need).bind fun n =>
      if s.stage.rank < n.stage.rank then some (.later s.id s.stage need n.stage) else none

def validate : Except Invalid Unit :=
  if p.missing ≠ [] then .error (.dangling (p.missing.insertionSort (· ≤ ·)))
  else
    match p.findCycle with
    | some path => .error (.cycle path)
    | none =>
      match p.laterStage with
      | some late => .error late
      | none => .ok ()

/-- What the step of that name waits for, as far as it is in the plan. -/
def known (id : String) : List String := (p.needs id).filter fun n => (p.step n).isSome

/-- The names of the chosen steps and of all they wait for. -/
def kept (select : Step → Bool) : List String :=
  ((p.steps.filter select).map Step.id).foldl (DepthFirst.gather p.known (p.steps.length + 1)) []

def restrict (select : Step → Bool) : Plan where
  steps := (p.steps.filter fun s => s.id ∈ p.kept select).map fun s =>
    { s with needs := s.needs.filter (· ∈ p.kept select) }
  named := by
    intro s hs
    obtain ⟨t, ht, rfl⟩ := List.mem_map.mp hs
    exact p.named t (List.mem_of_mem_filter ht)
  distinct := by
    rw [List.map_map]
    exact p.distinct.sublist (List.filter_sublist.map _)

/-- Every step that is waited for exists. -/
def Closed : Prop := ∀ s ∈ p.steps, ∀ n ∈ s.needs, ∃ t ∈ p.steps, t.id = n

/-- No step waits for itself in the end: some rank falls. -/
def Acyclic : Prop :=
  ∃ rank : String → Nat, ∀ s ∈ p.steps, ∀ n ∈ s.needs, rank n < rank s.id

/-- No step waits for one of a later stage. -/
def Staged : Prop :=
  ∀ s ∈ p.steps, ∀ t ∈ p.steps, t.id ∈ s.needs → t.stage.rank ≤ s.stage.rank

/-- Plan `q` is the chosen steps of `p` with all they wait for, and it is
    accepted. -/
structure Restricts (select : Step → Bool) (q : Plan) : Prop where
  valid : q.validate = .ok ()
  selected : ∀ s ∈ p.steps, select s = true → s ∈ q.steps
  closed : ∀ s ∈ q.steps, ∀ t ∈ p.steps, t.id ∈ s.needs → t ∈ q.steps
  reached : ∀ s ∈ q.steps, s ∈ p.steps ∧ ∃ t ∈ p.steps, select t = true ∧
    Relation.ReflTransGen (fun v n => n ∈ p.needs v) t.id s.id

variable {p} {s : Step}

theorem eq_of_id {t : Step} (hs : s ∈ p.steps) (ht : t ∈ p.steps) (h : s.id = t.id) : s = t :=
  List.inj_on_of_nodup_map p.distinct hs ht h

theorem nodup_steps : p.steps.Nodup := List.Nodup.of_map _ p.distinct

variable {id : String}

theorem step_eq_some_iff : p.step id = some s ↔ s ∈ p.steps ∧ s.id = id := by
  constructor
  · intro h
    exact ⟨List.mem_of_find?_eq_some h, by simpa using List.find?_some h⟩
  · rintro ⟨hmem, rfl⟩
    cases h : p.step s.id with
    | none => simpa using List.find?_eq_none.mp h s hmem
    | some t =>
      have ht : t.id = s.id := by simpa using List.find?_some h
      rw [eq_of_id (List.mem_of_find?_eq_some h) hmem ht]

theorem step_eq_none_iff : p.step id = none ↔ ∀ s ∈ p.steps, s.id ≠ id := by
  simp [step, List.find?_eq_none]

theorem needs_id (hs : s ∈ p.steps) : p.needs s.id = s.needs := by
  rw [needs, step_eq_some_iff.mpr ⟨hs, rfl⟩]
  rfl

theorem mem_needs {n : String} : n ∈ p.needs id ↔ ∃ s ∈ p.steps, s.id = id ∧ n ∈ s.needs := by
  constructor
  · intro hn
    cases h : p.step id with
    | none => simp [needs, h] at hn
    | some s =>
      obtain ⟨hs, rfl⟩ := step_eq_some_iff.mp h
      exact ⟨s, hs, rfl, needs_id hs ▸ hn⟩
  · rintro ⟨s, hs, rfl, hn⟩
    rwa [needs_id hs]

theorem missing_eq_nil_iff : p.missing = [] ↔ p.Closed := by
  simp only [missing, List.flatMap_eq_nil_iff, List.map_eq_nil_iff, List.filter_eq_nil_iff,
    decide_eq_true_eq, step_eq_none_iff, Closed]
  refine forall₂_congr fun s _ => forall₂_congr fun n _ => ?_
  push Not
  rfl

theorem Closed.ids (hclosed : p.Closed) :
    ∀ v ∈ p.steps.map Step.id, ∀ n ∈ p.needs v, n ∈ p.steps.map Step.id := by
  intro v hv n hn
  obtain ⟨s, hs, rfl⟩ := List.mem_map.mp hv
  rw [needs_id hs] at hn
  obtain ⟨t, ht, rfl⟩ := hclosed s hs n hn
  exact List.mem_map_of_mem ht

theorem Closed.sorted (hclosed : p.Closed) :
    ∀ v ∈ (p.steps.map Step.id).insertionSort (· ≤ ·), ∀ n ∈ p.needs v,
      n ∈ (p.steps.map Step.id).insertionSort (· ≤ ·) := by
  intro v hv n hn
  rw [List.mem_insertionSort] at hv ⊢
  exact hclosed.ids v hv n hn

theorem findCycle_eq_none_iff (hclosed : p.Closed) : p.findCycle = none ↔ p.Acyclic := by
  rw [findCycle, DepthFirst.findCycle_eq_none_iff hclosed.sorted, DepthFirst.Ranked, Acyclic]
  refine exists_congr fun rank => ?_
  simp only [List.mem_insertionSort, List.forall_mem_map]
  refine forall₂_congr fun s hs => ?_
  rw [needs_id hs]

theorem laterStage_eq_none_iff : p.laterStage = none ↔ p.Staged := by
  simp only [laterStage, List.findSome?_eq_none_iff, Option.bind_eq_none_iff, step_eq_some_iff,
    ite_eq_right_iff, reduceCtorEq, imp_false, Nat.not_lt, Staged]
  refine forall₂_congr fun s _ => ?_
  constructor
  · intro h t ht hneed
    exact h t.id hneed t ⟨ht, rfl⟩
  · rintro h need hneed t ⟨ht, rfl⟩
    exact h t ht hneed

/-- What an accepted plan is. -/
theorem validate_iff : p.validate = .ok () ↔ p.Closed ∧ p.Acyclic ∧ p.Staged := by
  unfold validate
  by_cases hmissing : p.missing = []
  · have hclosed := missing_eq_nil_iff.mp hmissing
    rw [if_neg (not_not.mpr hmissing), ← findCycle_eq_none_iff hclosed, ← laterStage_eq_none_iff]
    cases p.findCycle with
    | some path => simp
    | none => cases p.laterStage <;> simp [hclosed]
  · rw [if_pos hmissing]
    simp [← missing_eq_nil_iff, hmissing]

theorem validate_eq_cycle_iff {path : List String} :
    p.validate = .error (.cycle path) ↔ p.Closed ∧ p.findCycle = some path := by
  unfold validate
  by_cases hmissing : p.missing = []
  · rw [if_neg (not_not.mpr hmissing), ← missing_eq_nil_iff]
    cases p.findCycle with
    | some path => simp [hmissing]
    | none =>
      cases h : p.laterStage with
      | none => simp
      | some late =>
        -- a later stage is not reported as a cycle
        obtain ⟨s, _, hs⟩ := List.exists_of_findSome?_eq_some h
        obtain ⟨n, _, hn⟩ := List.exists_of_findSome?_eq_some hs
        obtain ⟨t, _, ht⟩ := Option.bind_eq_some_iff.mp hn
        rw [Option.ite_none_right_eq_some] at ht
        simp [← Option.some.inj ht.2]
  · rw [if_pos hmissing]
    simp [← missing_eq_nil_iff, hmissing]

theorem exists_cycle_iff (hclosed : p.Closed) :
    (∃ path, p.findCycle = some path) ↔ ∃ c, DepthFirst.Cycle p.needs c := by
  constructor
  · rintro ⟨path, h⟩
    obtain ⟨lead, c, _, hcycle⟩ := (DepthFirst.findCycle_returns hclosed.sorted h).cycle
    exact ⟨c, hcycle⟩
  · rintro ⟨c, hcycle⟩
    cases h : p.findCycle with
    | some path => exact ⟨path, rfl⟩
    | none =>
      obtain ⟨rank, hrank⟩ := (findCycle_eq_none_iff hclosed).mp h
      refine (hcycle.not_falling rank fun v _ n hn => ?_).elim
      obtain ⟨s, hs, rfl, hneed⟩ := mem_needs.mp hn
      exact hrank s hs n hneed

/-! ### Part of a plan -/

theorem known_eq (hclosed : p.Closed) : p.known = p.needs := by
  funext id
  refine List.filter_eq_self.mpr fun n hn => ?_
  obtain ⟨s, hs, rfl, hneed⟩ := mem_needs.mp hn
  obtain ⟨t, ht, rfl⟩ := hclosed s hs n hneed
  rw [step_eq_some_iff.mpr ⟨ht, rfl⟩]
  rfl

variable {select : Step → Bool}

theorem kept_gathers (hclosed : p.Closed) :
    DepthFirst.Gathers p.needs [] ((p.steps.filter select).map Step.id) (p.kept select) := by
  rw [kept, known_eq hclosed]
  refine DepthFirst.gathers_foldl (DepthFirst.gather_gathers hclosed.ids _)
    (List.map_subset _ (List.filter_subset_self _)) ?_
  rw [List.toFinset_nil, Finset.sdiff_empty, Nat.lt_succ_iff, ← List.length_map Step.id]
  exact List.toFinset_card_le _

/-- Nothing that a kept step waits for is left out. -/
theorem mem_restrict_iff (hclosed : p.Closed) :
    s ∈ (p.restrict select).steps ↔ s ∈ p.steps ∧ s.id ∈ p.kept select := by
  have hsame : ∀ t ∈ p.steps, t.id ∈ p.kept select →
      t.needs.filter (fun n => decide (n ∈ p.kept select)) = t.needs := by
    intro t ht hkept
    refine List.filter_eq_self.mpr fun n hn => decide_eq_true ?_
    exact (kept_gathers hclosed).closed t.id hkept List.not_mem_nil n (needs_id ht ▸ hn)
  constructor
  · intro hs
    obtain ⟨t, ht, rfl⟩ := List.mem_map.mp hs
    obtain ⟨ht, hkept⟩ := List.mem_filter.mp ht
    rw [hsame t ht (of_decide_eq_true hkept)]
    exact ⟨ht, of_decide_eq_true hkept⟩
  · rintro ⟨hs, hkept⟩
    refine List.mem_map.mpr ⟨s, List.mem_filter.mpr ⟨hs, decide_eq_true hkept⟩, ?_⟩
    rw [hsame s hs hkept]

theorem restrict_restricts (hvalid : p.validate = .ok ()) :
    p.Restricts select (p.restrict select) := by
  obtain ⟨hclosed, ⟨rank, hrank⟩, hstaged⟩ := validate_iff.mp hvalid
  have hmem : ∀ {s}, s ∈ (p.restrict select).steps ↔ s ∈ p.steps ∧ s.id ∈ p.kept select :=
    mem_restrict_iff hclosed
  have hgathers : DepthFirst.Gathers _ _ _ (p.kept select) := kept_gathers hclosed
  have hneeds : ∀ s ∈ (p.restrict select).steps, ∀ t ∈ p.steps, t.id ∈ s.needs →
      t ∈ (p.restrict select).steps := by
    intro s hs t ht hneed
    obtain ⟨hs, hkept⟩ := hmem.mp hs
    exact hmem.mpr ⟨ht, hgathers.closed s.id hkept List.not_mem_nil t.id (needs_id hs ▸ hneed)⟩
  refine ⟨validate_iff.mpr ⟨fun s hs n hn => ?_, ⟨rank, fun s hs => ?_⟩, fun s hs t ht => ?_⟩,
    fun s hs hselect => ?_, hneeds, fun s hs => ?_⟩
  · obtain ⟨t, ht, rfl⟩ := hclosed s (hmem.mp hs).1 n hn
    exact ⟨t, hneeds s hs t ht hn, rfl⟩
  · exact hrank s (hmem.mp hs).1
  · exact hstaged s (hmem.mp hs).1 t (hmem.mp ht).1
  · exact hmem.mpr ⟨hs, hgathers.roots (List.mem_map_of_mem (List.mem_filter.mpr ⟨hs, hselect⟩))⟩
  · obtain ⟨hs, hkept⟩ := hmem.mp hs
    obtain ⟨id, hid, hpath⟩ := (hgathers.reached s.id hkept).resolve_left List.not_mem_nil
    obtain ⟨t, ht, rfl⟩ := List.mem_map.mp hid
    exact ⟨hs, t, (List.mem_filter.mp ht).1, (List.mem_filter.mp ht).2, hpath⟩

/-- A cycle is reported exactly if there is one and nothing is missing. What is
    reported is a walk that ends in a cycle. Of an accepted plan every choice of
    steps leaves an accepted one, with these steps, all they wait for and no other. -/
theorem validate_cycle_and_restrict (p : Plan) :
    ((∃ path, p.validate = .error (.cycle path)) ↔
      p.Closed ∧ ∃ c, DepthFirst.Cycle p.needs c) ∧
    (∀ path, p.validate = .error (.cycle path) →
      path.IsChain (fun v n => n ∈ p.needs v) ∧
      ∃ lead c, path = lead ++ c ∧ DepthFirst.Cycle p.needs c) ∧
    (p.validate = .ok () → ∀ select, p.Restricts select (p.restrict select)) := by
  refine ⟨?_, fun path h => ?_, fun hvalid select => restrict_restricts hvalid⟩
  · simp only [validate_eq_cycle_iff, exists_and_left]
    exact and_congr_right exists_cycle_iff
  · obtain ⟨hclosed, h⟩ := validate_eq_cycle_iff.mp h
    have hreturns := DepthFirst.findCycle_returns hclosed.sorted h
    exact ⟨hreturns.walk, hreturns.cycle⟩

/-- `b` waits for itself, and `a` for `b`. -/
def tailed : Plan where
  steps := [⟨"a", .create, "", "", ["b"], false⟩, ⟨"b", .create, "", "", ["b"], false⟩]
  named := by decide
  distinct := by decide

/-- Something is missing, and `a` waits for itself. -/
def dangled : Plan where
  steps := [⟨"a", .create, "", "", ["a", "b"], false⟩]
  named := by decide
  distinct := by decide

/-- The search comes to the cycle on the way, and a missing step is told first. -/
theorem reported_path_has_lead :
    (tailed.validate = .error (.cycle ["a", "b", "b"]) ∧
      ¬ DepthFirst.Cycle tailed.needs ["a", "b", "b"]) ∧
    dangled.validate = .error (.dangling ["a needs b, which does not exist"]) ∧
      DepthFirst.Cycle dangled.needs ["a", "a"] := by
  refine ⟨⟨by decide +kernel, ?_⟩, by decide +kernel, ⟨by decide +kernel, "a", [], rfl⟩⟩
  rintro ⟨_, v, mid, h⟩
  obtain ⟨rfl, h⟩ := List.cons.inj h
  have hlast := congrArg List.getLast? h
  rw [List.getLast?_concat] at hlast
  exact absurd hlast (by decide)

end Plan

end Twinet
