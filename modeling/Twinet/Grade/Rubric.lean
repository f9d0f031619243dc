import Mathlib.Algebra.Field.Rat
import Mathlib.Algebra.Order.Ring.Rat
import Mathlib.Data.List.Nodup
import Twinet.Lib.Weighted

/-!
# Rubrics

A rubric splits the marks of an assignment over questions, and the marks of a question
over checks by weight. It is read from a file that a person wrote, and `validate`
collects what is wrong with it. A weight that is left out is zero in the file and
counts as one.

The mark of a question is the weighted mean of the scores of its checks. A check that
could not run, or that does not apply, is left out of the mean.

Numbers are rational here, so that no mark depends on rounding.

## Main definitions

* `validate`: What is wrong with a rubric.
* `awardFor`: The mark of a question.
* `Accepted`: What an accepted rubric is like.

## Theorems

* `Accepted.of_validate`: What an accepted rubric is like.
* `awardFor_eq`: A mark is a share of the points.
* `awardFor_nonneg`, `awardFor_le`, `awardFor_mono`: Marks with weights in range.
* `exists_awardFor_gt`: A mark with a negative weight.
-/

namespace Twinet

namespace Grade

open List Weighted

/-! ### Rubrics -/

structure CheckSpec where
  check : String
  /-- Zero where it was left out. -/
  weight : ℚ
deriving DecidableEq

structure QuestionSpec where
  id : String
  title : String
  points : ℚ
  checks : List CheckSpec
  dependsOn : List String
deriving DecidableEq

structure Rubric where
  kind : String
  /-- What the file says the points sum up to, zero where it does not say. -/
  total : ℚ
  supportedInteriorKinds : List String
  questions : List QuestionSpec
deriving DecidableEq

/-- The weight a check counts with. -/
def CheckSpec.effectiveWeight (c : CheckSpec) : ℚ := if c.weight = 0 then 1 else c.weight

/-- The weights of a question. -/
def QuestionSpec.weights (q : QuestionSpec) : List ℚ := q.checks.map CheckSpec.effectiveWeight

/-- The sum of every question's points. -/
def Rubric.maxTotal (r : Rubric) : ℚ := (r.questions.map QuestionSpec.points).sum

/-- The checks and the interior kinds that are known. -/
structure Registry where
  check : String → Bool
  interior : String → Bool

/-! ### Validation -/

/-- Something that is wrong with a rubric. -/
inductive Problem where
  | kind (got : String)
  | noQuestions
  | unknownInterior (kind : String)
  | repeatedInterior (kind : String)
  | noID (index : Nat)
  | declaredTwice (id : String)
  | noPoints (id : String)
  | noChecks (id : String)
  | unregistered (id : String) (index : Nat) (check : String)
  | weights (id : String) (sum : ℚ)
  | undeclared (id dep : String)
  | selfDependency (id : String)
  | laterDependency (id dep : String)
  | total (declared sum : ℚ)
deriving DecidableEq

def interiorProblems (reg : Registry) : List String → List String → List Problem
  | _, [] => []
  | seen, kind :: rest =>
    (if reg.interior kind = false then [.unknownInterior kind]
      else if kind ∈ seen then [.repeatedInterior kind]
      else []) ++ interiorProblems reg (kind :: seen) rest

/-- What is wrong with a question, given the ids that were declared before. -/
def questionProblems (reg : Registry) (seen : List String) (index : Nat) (q : QuestionSpec) :
    List Problem :=
  (if q.id = "" then [.noID index] else []) ++
  (if q.id ∈ seen then [.declaredTwice q.id] else []) ++
  (if q.points ≤ 0 then [.noPoints q.id] else []) ++
  (if q.checks = [] then [.noChecks q.id] else []) ++
  (q.checks.zipIdx.flatMap fun c =>
    if reg.check c.1.check then [] else [.unregistered q.id c.2 c.1.check]) ++
  (if q.checks ≠ [] ∧ (q.weights.sum < 999 / 1000 ∨ 1001 / 1000 < q.weights.sum)
    then [.weights q.id q.weights.sum] else [])

def questionsProblems (reg : Registry) : List String → Nat → List QuestionSpec → List Problem
  | _, _, [] => []
  | seen, index, q :: rest =>
    questionProblems reg seen index q ++ questionsProblems reg (q.id :: seen) (index + 1) rest

/-- Where a question stands. Of two with the same id it is the later one. -/
def position (questions : List QuestionSpec) (id : String) : Nat :=
  match questions.zipIdx.reverse.find? (·.1.id = id) with
  | some q => q.2
  | none => 0

/-- A question may only depend on one that comes before it. -/
def dependencyProblem (questions : List QuestionSpec) (index : Nat) (q : QuestionSpec)
    (dep : String) : Option Problem :=
  if dep ∉ questions.map QuestionSpec.id then some (.undeclared q.id dep)
  else if dep = q.id then some (.selfDependency q.id)
  else if index < position questions dep then some (.laterDependency q.id dep)
  else none

/-- Everything that is wrong with a rubric. -/
def validate (reg : Registry) (r : Rubric) : List Problem :=
  (if r.kind ≠ "" ∧ r.kind ≠ "Rubric" then [.kind r.kind] else []) ++
  (if r.questions = [] then [.noQuestions] else []) ++
  interiorProblems reg [] r.supportedInteriorKinds ++
  questionsProblems reg [] 0 r.questions ++
  (r.questions.zipIdx.flatMap fun q =>
    q.1.dependsOn.filterMap (dependencyProblem r.questions q.2 q.1)) ++
  (if 0 < r.total ∧ (r.maxTotal < r.total - 1 / 1000 ∨ r.total + 1 / 1000 < r.maxTotal)
    then [.total r.total r.maxTotal] else [])

/-! ### Results -/

/-- The outcome of a check or a question. -/
inductive Status where
  | pass
  | fail
  | partly
  | skipped
  | error
  | notApplicable
  | unsupported
deriving DecidableEq, Repr

/-- The outcome of one check. -/
structure Result where
  check : String
  status : Status
  score : ℚ
  /-- The evidence that could not be gathered. -/
  reduced : List String
deriving DecidableEq

/-- A result that does not count for the mark. -/
def Result.excluded (x : Result) : Bool :=
  x.status = .error || x.status = .notApplicable || x.status = .unsupported

def awardStep (sums : ℚ × ℚ) (c : CheckSpec × Result) : ℚ × ℚ :=
  if c.2.excluded then sums
  else (sums.1 + c.1.effectiveWeight * c.2.score, sums.2 + c.1.effectiveWeight)

/-- The mark of a question. -/
def awardFor (q : QuestionSpec) (results : List Result) : ℚ :=
  let sums := (q.checks.zip results).foldl awardStep (0, 0)
  if sums.2 = 0 then 0 else sums.1 / sums.2 * q.points

/-! ### Accepted rubrics -/

/-- What an accepted rubric is like. -/
structure Accepted (r : Rubric) : Prop where
  named : ∀ q ∈ r.questions, q.id ≠ ""
  once : (r.questions.map QuestionSpec.id).Nodup
  points : ∀ q ∈ r.questions, 0 < q.points
  checked : ∀ q ∈ r.questions, q.checks ≠ []
  weights : ∀ q ∈ r.questions, 999 / 1000 ≤ q.weights.sum ∧ q.weights.sum ≤ 1001 / 1000
  /-- What a question depends on comes before it. -/
  earlier : ∀ (i : Nat) (q : QuestionSpec), r.questions[i]? = some q → ∀ dep ∈ q.dependsOn,
    ∃ (j : Nat) (p : QuestionSpec), j < i ∧ r.questions[j]? = some p ∧ p.id = dep

section Validation

variable {reg : Registry} {r : Rubric} {seen : List String} {questions : List QuestionSpec}

/-- A question with nothing wrong. -/
structure SoundQuestion (seen : List String) (q : QuestionSpec) : Prop where
  named : q.id ≠ ""
  fresh : q.id ∉ seen
  points : 0 < q.points
  checked : q.checks ≠ []
  weights : 999 / 1000 ≤ q.weights.sum ∧ q.weights.sum ≤ 1001 / 1000

variable {index : Nat}

theorem soundQuestion_of_nil {q : QuestionSpec}
    (h : questionProblems reg seen index q = []) : SoundQuestion seen q := by
  simp only [questionProblems, append_eq_nil_iff, ite_eq_right_iff, cons_ne_nil,
    imp_false, not_and, not_or, not_lt] at h
  obtain ⟨⟨⟨⟨⟨hnamed, hfresh⟩, hpoints⟩, hchecked⟩, -⟩, hweights⟩ := h
  exact ⟨hnamed, hfresh, not_le.mp hpoints, hchecked, hweights hchecked⟩

theorem sound_of_questionsProblems (h : questionsProblems reg seen index questions = []) :
    (∀ q ∈ questions, SoundQuestion seen q) ∧ (questions.map QuestionSpec.id).Nodup := by
  induction questions generalizing seen index with
  | nil => exact ⟨nofun, nodup_nil⟩
  | cons q rest ih =>
    rw [questionsProblems, append_eq_nil_iff] at h
    obtain ⟨hrest, hnodup⟩ := ih h.2
    have hfirst := soundQuestion_of_nil h.1
    refine ⟨forall_mem_cons.mpr ⟨hfirst, fun p hp => ?_⟩, ?_⟩
    · exact { hrest p hp with
          fresh := fun hmem => (hrest p hp).fresh (mem_cons_of_mem _ hmem) }
    · rw [map_cons, nodup_cons]
      refine ⟨fun hmem => ?_, hnodup⟩
      obtain ⟨p, hp, hid⟩ := mem_map.mp hmem
      refine (hrest p hp).fresh ?_
      rw [hid]
      exact mem_cons_self

theorem position_eq (hnodup : (questions.map QuestionSpec.id).Nodup) {j : Nat} {p : QuestionSpec}
    (hp : questions[j]? = some p) : position questions p.id = j := by
  unfold position
  have hmem : (p, j) ∈ questions.zipIdx := mk_mem_zipIdx_iff_getElem?.mpr hp
  cases hfind : questions.zipIdx.reverse.find? (·.1.id = p.id) with
  | none =>
    have hnone := find?_eq_none.mp hfind (p, j) (mem_reverse.mpr hmem)
    simp at hnone
  | some found =>
    obtain ⟨q, i⟩ := found
    have hid : q.id = p.id := by simpa using find?_some hfind
    have hq : questions[i]? = some q := by
      have hfound := mem_reverse.mp (mem_of_find?_eq_some hfind)
      exact mk_mem_zipIdx_iff_getElem?.mp hfound
    have hi : (questions.map QuestionSpec.id)[i]? = some p.id := by simp [hq, hid]
    have hj : (questions.map QuestionSpec.id)[j]? = some p.id := by simp [hp]
    obtain ⟨hlt, -⟩ := List.getElem?_eq_some_iff.mp hi
    exact (getElem?_inj hlt hnodup).mp (hi.trans hj.symm)

/-- A rubric without problems is accepted. -/
theorem Accepted.of_validate (h : validate reg r = []) : Accepted r := by
  simp only [validate, append_eq_nil_iff] at h
  obtain ⟨⟨⟨-, hquestions⟩, hdeps⟩, -⟩ := h
  obtain ⟨hsound, hnodup⟩ := sound_of_questionsProblems hquestions
  refine ⟨fun q hq => (hsound q hq).named, hnodup, fun q hq => (hsound q hq).points,
    fun q hq => (hsound q hq).checked, fun q hq => (hsound q hq).weights, ?_⟩
  intro i q hq dep hdep
  have hnone : dependencyProblem r.questions i q dep = none := by
    have hall := flatMap_eq_nil_iff.mp hdeps (q, i) (mk_mem_zipIdx_iff_getElem?.mpr hq)
    exact filterMap_eq_nil_iff.mp hall dep hdep
  unfold dependencyProblem at hnone
  split_ifs at hnone with hdeclared hself hlater
  obtain ⟨p, hp, rfl⟩ := mem_map.mp hdeclared
  obtain ⟨j, hj⟩ := getElem?_of_mem hp
  refine ⟨j, p, ?_, hj, rfl⟩
  rw [position_eq hnodup hj] at hlater
  -- the positions differ, for the ids do
  rcases lt_or_ge j i with hlt | hge
  · exact hlt
  · have heq : j = i := Nat.le_antisymm (Nat.le_of_not_lt hlater) hge
    rw [heq, hq, Option.some.injEq] at hj
    exact absurd (congrArg QuestionSpec.id hj.symm) hself

end Validation

/-! ### Marks -/

section Marks

variable {q : QuestionSpec} {results results' : List Result}

/-- The weights and scores that count. -/
def counted (q : QuestionSpec) (results : List Result) : List (ℚ × ℚ) :=
  ((q.checks.zip results).filter fun c => !c.2.excluded).map fun c =>
    (c.1.effectiveWeight, c.2.score)

theorem foldl_awardStep (l : List (CheckSpec × Result)) (sums : ℚ × ℚ) :
    l.foldl awardStep sums =
      (sums.1 + credit ((l.filter fun c => !c.2.excluded).map fun c =>
          (c.1.effectiveWeight, c.2.score)),
        sums.2 + weight ((l.filter fun c => !c.2.excluded).map fun c =>
          (c.1.effectiveWeight, c.2.score))) := by
  induction l generalizing sums with
  | nil => simp [credit, weight]
  | cons c l ih =>
    rw [foldl_cons, ih]
    by_cases hexcluded : c.2.excluded = true
    · simp [awardStep, hexcluded]
    · simp [awardStep, hexcluded, credit, weight, add_assoc]

/-- A mark is a weighted mean times the points. -/
theorem awardFor_eq (q : QuestionSpec) (results : List Result) :
    awardFor q results = mean (counted q results) * q.points := by
  simp only [awardFor, foldl_awardStep, zero_add, mean]
  by_cases hzero : weight (counted q results) = 0
  · rw [if_pos hzero]
    exact (if_pos hzero).trans (zero_mul _).symm
  · rw [if_neg hzero]
    exact if_neg hzero

theorem exists_of_mem_counted {p : ℚ × ℚ} (h : p ∈ counted q results) :
    ∃ c ∈ q.checks, ∃ x ∈ results, x.excluded = false ∧ p = (c.effectiveWeight, x.score) := by
  obtain ⟨⟨c, x⟩, hmem, rfl⟩ := mem_map.mp h
  obtain ⟨hzip, hcounts⟩ := mem_filter.mp hmem
  exact ⟨c, (of_mem_zip hzip).1, x, (of_mem_zip hzip).2, by simpa using hcounts, rfl⟩

variable {c : CheckSpec}

theorem CheckSpec.effectiveWeight_pos (h : 0 ≤ c.weight) : 0 < c.effectiveWeight := by
  unfold effectiveWeight
  by_cases hzero : c.weight = 0
  · rw [if_pos hzero]
    exact zero_lt_one
  · rw [if_neg hzero]
    exact lt_of_le_of_ne h (Ne.symm hzero)

section

variable (hweights : ∀ c ∈ q.checks, 0 ≤ c.weight)

include hweights

theorem counted_weight_nonneg : ∀ p ∈ counted q results, 0 ≤ p.1 := by
  intro p hp
  obtain ⟨c, hc, x, -, -, rfl⟩ := exists_of_mem_counted hp
  exact (CheckSpec.effectiveWeight_pos (hweights c hc)).le

/-- No mark is negative. -/
theorem awardFor_nonneg (hpoints : 0 < q.points)
    (hscores : ∀ x ∈ results, 0 ≤ x.score) : 0 ≤ awardFor q results := by
  rw [awardFor_eq]
  refine mul_nonneg (mean_nonneg (counted_weight_nonneg hweights) ?_) hpoints.le
  intro p hp
  obtain ⟨c, -, x, hx, -, rfl⟩ := exists_of_mem_counted hp
  exact hscores x hx

/-- No mark is above the points. -/
theorem awardFor_le (hpoints : 0 < q.points)
    (hscores : ∀ x ∈ results, x.score ≤ 1) : awardFor q results ≤ q.points := by
  rw [awardFor_eq]
  refine mul_le_of_le_one_left hpoints.le
    (mean_le_one (counted_weight_nonneg hweights) ?_)
  intro p hp
  obtain ⟨c, -, x, hx, -, rfl⟩ := exists_of_mem_counted hp
  exact hscores x hx

end

/-- A result that counts just as the other does, with a score that is no lower. The status
    itself may have risen from a failure to a pass. -/
def Result.AtMost (x y : Result) : Prop := x.excluded = y.excluded ∧ x.score ≤ y.score

theorem counted_mono (h : Forall₂ Result.AtMost results results') :
    Forall₂ (fun p p' : ℚ × ℚ => p.1 = p'.1 ∧ p.2 ≤ p'.2)
      (counted q results) (counted q results') := by
  unfold counted
  generalize q.checks = checks
  induction h generalizing checks with
  | nil => simp
  | @cons x y _ _ hxy _ ih =>
    cases checks with
    | nil => simp
    | cons c checks =>
      by_cases hexcluded : y.excluded = true
      · simpa [hxy.1, hexcluded] using ih checks
      · simpa [hxy.1, hexcluded, hxy.2] using ih checks

/-- Better results earn no less. -/
theorem awardFor_mono (hweights : ∀ c ∈ q.checks, 0 ≤ c.weight) (hpoints : 0 < q.points)
    (h : Forall₂ Result.AtMost results results') :
    awardFor q results ≤ awardFor q results' := by
  rw [awardFor_eq, awardFor_eq]
  exact mul_le_mul_of_nonneg_right
    (mean_mono (counted_mono h) (counted_weight_nonneg hweights)) hpoints.le

/-- Checks that pass where the weight is not negative, and fail elsewhere. -/
def oneSided (q : QuestionSpec) : List Result :=
  q.checks.map fun c =>
    if 0 ≤ c.effectiveWeight then ⟨c.check, .pass, 1, []⟩ else ⟨c.check, .fail, 0, []⟩

theorem counted_oneSided (q : QuestionSpec) :
    counted q (oneSided q) = extreme q.weights := by
  unfold counted oneSided QuestionSpec.weights extreme
  induction q.checks with
  | nil => rfl
  | cons c checks ih =>
    by_cases hc : 0 ≤ c.effectiveWeight
    · simpa [hc, Result.excluded] using ih
    · simpa [hc, Result.excluded] using ih

theorem score_oneSided {x : Result} (h : x ∈ oneSided q) : 0 ≤ x.score ∧ x.score ≤ 1 := by
  obtain ⟨c, -, rfl⟩ := mem_map.mp h
  split_ifs
  · exact ⟨zero_le_one, le_refl _⟩
  · exact ⟨le_refl _, zero_le_one⟩

/-- A negative weight lets a mark pass the points. -/
theorem exists_awardFor_gt (hsum : 0 < q.weights.sum) (hpoints : 0 < q.points) (hc : c ∈ q.checks)
    (hneg : c.weight < 0) : q.points < awardFor q (oneSided q) := by
  have heff : c.effectiveWeight < 0 := by
    rw [CheckSpec.effectiveWeight, if_neg hneg.ne]
    exact hneg
  have hmean : 1 < mean (counted q (oneSided q)) := by
    rw [counted_oneSided]
    exact one_lt_mean hsum (mem_map_of_mem hc) heff
  rw [awardFor_eq]
  exact lt_mul_of_one_lt_left hpoints hmean

end Marks

end Grade

end Twinet
