import Mathlib.Data.List.Sort
import Twinet.Grade.Rubric

/-!
# Reports

Grading one system produces a report: for every question of the rubric what was
awarded and why, and the total. All checks are run before anything is marked. A
question that depends on one that earned nothing is then skipped, whatever its own
checks found.

A report is held back when something kept it from being a judgement about the
submission: it could not be graded at all, the network had not settled, or a check of
a question that counts did not run.

## Main definitions

* `markQuestions`: The questions in their order, marked.
* `run`: Grade one submission.
* `Report.Releasable`: A report that can be given out as it is.
* `InRange`: The marks are in range whatever the checks find.

## Theorems

* `getElem?_markQuestions`: What a question is marked with.
* `questions_run`: The results of an accepted rubric are those of its questions.
* `scores_in_range_iff`: When all marks are in range.
* `total_mono`: The total rises with the scores.
* `unassessed_iff`: When a question nothing was found out about is not failed.
-/

namespace Twinet

namespace Grade

open List

/-! ### Questions -/

/-- Why the mark of a question needs a person. -/
inductive Note where
  | reduced (why : List String)
  | broken (checks : List String)
  | unsupported (checks : List String)
  | unassessed (checks : Nat)
deriving DecidableEq

structure QuestionResult where
  id : String
  title : String
  points : ℚ
  awarded : ℚ
  status : Status
  results : List Result
  /-- The question that scored nothing, for one that was not assessed. -/
  skipped : Option String
  needsReview : Bool
  notes : List Note
deriving DecidableEq

def statusFor (fraction : ℚ) : Status :=
  if 999 / 1000 ≤ fraction then .pass
  else if fraction ≤ 1 / 1000 then .fail
  else .partly

/-- The checks that ended with a status. -/
def checksWith (s : Status) (results : List Result) : List String :=
  (results.filter (·.status = s)).map Result.check

/-- The evidence that was missing where something was scored. -/
def reducedEvidence (results : List Result) : List String :=
  results.flatMap fun x =>
    if x.reduced = [] ∨ x.score ≤ 0 then [] else x.reduced.map (x.check ++ ": " ++ ·)

/-- The result of a question from those of its checks. -/
def questionResult (q : QuestionSpec) (results : List Result) : QuestionResult :=
  let broken := checksWith .error results
  let unsupported := checksWith .unsupported results
  let inapplicable := (results.filter (·.status = .notApplicable)).length
  let reduced := reducedEvidence results
  let awarded := awardFor q results
  let unassessed := broken.length + unsupported.length + inapplicable = q.checks.length ∧
    0 < inapplicable ∧ unsupported = []
  { id := q.id
    title := q.title
    points := q.points
    awarded := awarded
    -- of several reasons not to go by the mark the last one found counts
    status :=
      if unassessed then .error
      else if unsupported ≠ [] ∧ unsupported.length + broken.length = q.checks.length
      then .unsupported
      else if broken ≠ [] ∧ broken.length = q.checks.length then .error
      else statusFor (if 0 < q.points then awarded / q.points else 0)
    results := results
    skipped := none
    needsReview := reduced ≠ [] || broken ≠ [] || unsupported ≠ [] || unassessed
    notes :=
      (if reduced = [] then [] else [.reduced (reduced.insertionSort (· ≤ ·))]) ++
      (if broken = [] then [] else [.broken (broken.insertionSort (· ≤ ·))]) ++
      (if unsupported = [] then [] else [.unsupported (unsupported.insertionSort (· ≤ ·))]) ++
      (if unassessed then [.unassessed q.checks.length] else []) }

/-- The first question this one depends on that earned nothing, or the empty string. -/
def unmetDependency (q : QuestionSpec) (earned : List (String × ℚ)) : String :=
  (q.dependsOn.find? fun dep => (earned.lookup dep).any (· ≤ 0)).getD ""

def skippedResult (q : QuestionSpec) (blocker : String) : QuestionResult :=
  { id := q.id, title := q.title, points := q.points, awarded := 0, status := .skipped
    results := [], skipped := some blocker, needsReview := false, notes := [] }

/-! ### Runs -/

/-- How the wait for the network to settle ended. -/
inductive Convergence where
  | settled
  | unsettled
  | unobservable
  | cancelled
deriving DecidableEq, Repr

structure RunOptions where
  waitForConvergence : Bool
  convergeTimeout : Int

/-- What a grading run meets. -/
structure Encounter where
  /-- The systems of the lab with the kind of their interior, empty where none is said. -/
  interiors : List (Nat × String)
  convergence : Convergence
  /-- What the checks report, by question and check. -/
  report : Nat → Nat → Result
  cancelled : Bool

/-- Why a report was not graded or not finished. -/
inductive ReportError where
  | incompatible (interiors : List (Nat × String))
  | cancelledWaiting
  | unobservable
  | cancelled
deriving DecidableEq

structure Report where
  total : ℚ
  maxTotal : ℚ
  questions : List QuestionResult
  /-- A warning that the marks were taken of a network that was still changing. -/
  unsettled : Bool
  err : Option ReportError
  needsReview : Bool
deriving DecidableEq

/-- The systems whose interior the rubric does not support. -/
def unsupportedInteriors (r : Rubric) (interiors : List (Nat × String)) : List (Nat × String) :=
  if r.supportedInteriorKinds = [] then []
  else (interiors.map fun s => (s.1, if s.2 = "" then "explicit" else s.2)).filter
    fun s => s.2 ∉ r.supportedInteriorKinds

section Run

variable (w : Encounter)

/-- What the checks of a question reported. -/
def resultSet (i : Nat) (q : QuestionSpec) : List Result :=
  (range q.checks.length).map (w.report i)

def markQuestion (earned : List (String × ℚ)) (i : Nat) (q : QuestionSpec) : QuestionResult :=
  if unmetDependency q earned ≠ "" then skippedResult q (unmetDependency q earned)
  else questionResult q (resultSet w i q)

/-- The questions in their order, with what was earned before each. -/
def markQuestions : Nat → List (String × ℚ) → List QuestionSpec → List QuestionResult
  | _, _, [] => []
  | i, earned, q :: rest =>
    markQuestion w earned i q ::
      markQuestions (i + 1) ((q.id, (markQuestion w earned i q).awarded) :: earned) rest

/-- A report that assessed nothing. -/
def notGraded (rep : Report) (why : ReportError) : Report :=
  { rep with err := some why, needsReview := true }

def graded (r : Rubric) (rep : Report) : Report :=
  let questions := markQuestions w 0 [] r.questions
  let named := questions.filter (·.id ≠ "")
  { rep with
    total := (named.map QuestionResult.awarded).sum
    questions := named
    err := if w.cancelled then some .cancelled else none
    needsReview := rep.needsReview || questions.any QuestionResult.needsReview }

/-- Grade one submission. -/
def run (r : Rubric) (opts : RunOptions) : Report :=
  let rep : Report := ⟨0, r.maxTotal, [], false, none, false⟩
  if unsupportedInteriors r w.interiors ≠ [] then
    notGraded rep (.incompatible (unsupportedInteriors r w.interiors))
  else
    match if opts.waitForConvergence && 0 < opts.convergeTimeout then w.convergence
      else .settled with
    | .cancelled => notGraded rep .cancelledWaiting
    | .unobservable => notGraded rep .unobservable
    | .unsettled => graded w r { rep with unsettled := true, needsReview := true }
    | .settled => graded w r rep

end Run

/-- A report that can be given out as it is. -/
def Report.Releasable (rep : Report) : Prop := rep.err = none ∧ rep.needsReview = false

instance (rep : Report) : Decidable rep.Releasable := inferInstanceAs (Decidable (_ ∧ _))

/-! ### What the questions are marked with -/

section Marking

variable {w : Encounter}

theorem id_markQuestion (earned : List (String × ℚ)) (i : Nat) (q : QuestionSpec) :
    (markQuestion w earned i q).id = q.id := by
  unfold markQuestion
  split_ifs
  · rfl
  · rfl

theorem length_markQuestions (i : Nat) (earned : List (String × ℚ)) (qs : List QuestionSpec) :
    (markQuestions w i earned qs).length = qs.length := by
  induction qs generalizing i earned with
  | nil => rfl
  | cons q rest ih => rw [markQuestions, length_cons, ih, length_cons]

/-- A question is marked by what earlier ones earned. -/
theorem getElem?_markQuestions {k : Nat} {earned : List (String × ℚ)} {qs : List QuestionSpec}
    {i : Nat} {q : QuestionSpec} (hq : qs[i]? = some q) :
    ∃ earned', (markQuestions w k earned qs)[i]? = some (markQuestion w earned' (k + i) q) ∧
      ∀ dep v, (dep, v) ∈ earned' → (dep, v) ∈ earned ∨ ∃ j < i, ∃ p pr, qs[j]? = some p ∧
        (markQuestions w k earned qs)[j]? = some pr ∧ p.id = dep ∧ pr.awarded = v := by
  induction qs generalizing k earned i with
  | nil => cases hq
  | cons first rest ih =>
    cases i with
    | zero =>
      rw [getElem?_cons_zero, Option.some.injEq] at hq
      rw [← hq]
      exact ⟨earned, rfl, fun dep v hmem => .inl hmem⟩
    | succ i =>
      obtain ⟨earned', hmark, hearned⟩ := @ih (k + 1)
        ((first.id, (markQuestion w earned k first).awarded) :: earned) i hq
      refine ⟨earned', ?_, fun dep v hmem => ?_⟩
      · rw [markQuestions, getElem?_cons_succ, hmark, add_right_comm, add_assoc]
      · rcases hearned dep v hmem with hbefore | ⟨j, hj, p, pr, hp, hpr, hid, hv⟩
        · rcases mem_cons.mp hbefore with heq | hbefore
          · -- what the first question earned
            obtain ⟨rfl, rfl⟩ := Prod.mk.inj heq
            exact .inr ⟨0, Nat.succ_pos i, first, markQuestion w earned k first, rfl, rfl,
              rfl, rfl⟩
          · exact .inl hbefore
        · exact .inr ⟨j + 1, Nat.succ_lt_succ hj, p, pr, hp, hpr, hid, hv⟩

theorem exists_of_mem_markQuestions {k : Nat} {earned : List (String × ℚ)}
    {qs : List QuestionSpec} {qr : QuestionResult} (h : qr ∈ markQuestions w k earned qs) :
    ∃ earned' i, ∃ q ∈ qs, qr = markQuestion w earned' i q := by
  induction qs generalizing k earned with
  | nil => cases h
  | cons q rest ih =>
    rcases mem_cons.mp h with rfl | h
    · exact ⟨earned, k, q, mem_cons_self, rfl⟩
    · obtain ⟨earned', i, p, hp, rfl⟩ := ih h
      exact ⟨earned', i, p, mem_cons_of_mem q hp, rfl⟩

variable {r : Rubric} {opts : RunOptions}

theorem named_markQuestions (h : Accepted r) :
    (markQuestions w 0 [] r.questions).filter (·.id ≠ "") = markQuestions w 0 [] r.questions := by
  rw [filter_eq_self]
  intro qr hqr
  obtain ⟨earned, i, q, hq, rfl⟩ := exists_of_mem_markQuestions hqr
  rw [id_markQuestion]
  exact decide_eq_true (h.named q hq)

theorem run_cases (w : Encounter) (r : Rubric) (opts : RunOptions) :
    (∃ why, run w r opts = notGraded ⟨0, r.maxTotal, [], false, none, false⟩ why) ∨
      ∃ unsettled, run w r opts = graded w r ⟨0, r.maxTotal, [], unsettled, none, unsettled⟩ := by
  fun_cases run w r opts with
  | case4 => exact .inr ⟨true, rfl⟩
  | case5 => exact .inr ⟨false, rfl⟩
  | _ => exact .inl ⟨_, rfl⟩

/-- A released report has the marks of all questions. -/
theorem questions_run (h : Accepted r) (hreleased : (run w r opts).Releasable) :
    (run w r opts).questions = markQuestions w 0 [] r.questions ∧
      ∀ qr ∈ markQuestions w 0 [] r.questions, qr.needsReview = false := by
  rcases run_cases w r opts with ⟨why, hrun⟩ | ⟨unsettled, hrun⟩
  · rw [hrun] at hreleased
    cases hreleased.1
  · rw [hrun] at hreleased ⊢
    refine ⟨named_markQuestions h, fun qr hqr => ?_⟩
    have hreview : (unsettled || (markQuestions w 0 [] r.questions).any
      QuestionResult.needsReview) = false := hreleased.2
    rw [Bool.or_eq_false_iff, any_eq_false] at hreview
    exact Bool.eq_false_of_not_eq_true (hreview.2 qr hqr)

end Marking

/-! ### Totals -/

/-- The marks of a rubric are in range whatever its checks find. -/
structure InRange (r : Rubric) : Prop where
  awarded : ∀ q ∈ r.questions, ∀ results : List Result,
    (∀ x ∈ results, 0 ≤ x.score ∧ x.score ≤ 1) →
      0 ≤ awardFor q results ∧ awardFor q results ≤ q.points
  monotone : ∀ q ∈ r.questions, ∀ results results' : List Result,
    Forall₂ Result.AtMost results results' → awardFor q results ≤ awardFor q results'
  total : ∀ (w : Encounter) (opts : RunOptions),
    (∀ i j, 0 ≤ (w.report i j).score ∧ (w.report i j).score ≤ 1) →
      0 ≤ (run w r opts).total ∧ (run w r opts).total ≤ r.maxTotal

section Totals

variable {w : Encounter} {r : Rubric}

theorem score_resultSet (hscores : ∀ i j, 0 ≤ (w.report i j).score ∧ (w.report i j).score ≤ 1)
    (i : Nat) (q : QuestionSpec) : ∀ x ∈ resultSet w i q, 0 ≤ x.score ∧ x.score ≤ 1 := by
  intro x hx
  obtain ⟨j, -, rfl⟩ := mem_map.mp hx
  exact hscores i j

theorem awarded_markQuestion {q : QuestionSpec}
    (haward : ∀ results : List Result, (∀ x ∈ results, 0 ≤ x.score ∧ x.score ≤ 1) →
      0 ≤ awardFor q results ∧ awardFor q results ≤ q.points) (hpoints : 0 < q.points)
    (hscores : ∀ i j, 0 ≤ (w.report i j).score ∧ (w.report i j).score ≤ 1)
    (earned : List (String × ℚ)) (i : Nat) :
    0 ≤ (markQuestion w earned i q).awarded ∧ (markQuestion w earned i q).awarded ≤ q.points := by
  unfold markQuestion
  split_ifs
  · exact ⟨le_refl _, hpoints.le⟩
  · exact haward _ (score_resultSet hscores i q)

theorem sum_markQuestions {qs : List QuestionSpec}
    (h : ∀ earned i, ∀ q ∈ qs,
      0 ≤ (markQuestion w earned i q).awarded ∧ (markQuestion w earned i q).awarded ≤ q.points)
    (k : Nat) (earned : List (String × ℚ)) :
    0 ≤ ((markQuestions w k earned qs).map QuestionResult.awarded).sum ∧
      ((markQuestions w k earned qs).map QuestionResult.awarded).sum ≤
        (qs.map QuestionSpec.points).sum := by
  induction qs generalizing k earned with
  | nil => exact ⟨le_refl _, le_refl _⟩
  | cons q rest ih =>
    have hfirst := h earned k q mem_cons_self
    have hrest := ih (fun e i p hp => h e i p (mem_cons_of_mem q hp)) (k + 1)
      ((q.id, (markQuestion w earned k q).awarded) :: earned)
    simp only [markQuestions, map_cons, sum_cons]
    exact ⟨add_nonneg hfirst.1 hrest.1, add_le_add hfirst.2 hrest.2⟩

theorem maxTotal_nonneg (h : Accepted r) : 0 ≤ r.maxTotal := by
  refine sum_nonneg fun points hpoints => ?_
  obtain ⟨q, hq, rfl⟩ := mem_map.mp hpoints
  exact (h.points q hq).le

theorem total_run (h : Accepted r)
    (haward : ∀ q ∈ r.questions, ∀ results : List Result,
      (∀ x ∈ results, 0 ≤ x.score ∧ x.score ≤ 1) →
        0 ≤ awardFor q results ∧ awardFor q results ≤ q.points)
    (hscores : ∀ i j, 0 ≤ (w.report i j).score ∧ (w.report i j).score ≤ 1) (opts : RunOptions) :
    0 ≤ (run w r opts).total ∧ (run w r opts).total ≤ r.maxTotal := by
  rcases run_cases w r opts with ⟨why, hrun⟩ | ⟨unsettled, hrun⟩
  · rw [hrun]
    exact ⟨le_refl _, maxTotal_nonneg h⟩
  · rw [hrun]
    simp only [graded, named_markQuestions h]
    exact sum_markQuestions (fun earned i q hq =>
      awarded_markQuestion (haward q hq) (h.points q hq) hscores earned i) 0 []

end Totals

/-- For every rubric that is accepted: the marks of its questions are between zero and
    their points and rise with the scores, and the totals are between zero and the
    maximum, for all scores between zero and one, exactly if no check has a negative
    weight. -/
theorem scores_in_range_iff (reg : Registry) (r : Rubric) (h : validate reg r = []) :
    InRange r ↔ ∀ q ∈ r.questions, ∀ c ∈ q.checks, 0 ≤ c.weight := by
  have haccepted := Accepted.of_validate h
  constructor
  · intro hrange q hq c hc
    by_contra hneg
    have hsum : 0 < q.weights.sum := lt_of_lt_of_le (by norm_num) (haccepted.weights q hq).1
    have hbound := (hrange.awarded q hq (oneSided q) fun x hx => score_oneSided hx).2
    exact absurd hbound
      (not_le.mpr (exists_awardFor_gt hsum (haccepted.points q hq) hc (not_le.mp hneg)))
  · intro hweights
    have haward : ∀ q ∈ r.questions, ∀ results : List Result,
        (∀ x ∈ results, 0 ≤ x.score ∧ x.score ≤ 1) →
          0 ≤ awardFor q results ∧ awardFor q results ≤ q.points := by
      intro q hq results hscores
      have hpoints := haccepted.points q hq
      exact ⟨awardFor_nonneg (hweights q hq) hpoints fun x hx => (hscores x hx).1,
        awardFor_le (hweights q hq) hpoints fun x hx => (hscores x hx).2⟩
    exact ⟨haward, fun q hq results results' hle =>
      awardFor_mono (hweights q hq) (haccepted.points q hq) hle,
      fun w opts hscores => total_run haccepted haward hscores opts⟩

/-- A question worth ten points whose two checks have the weights two and minus one. -/
def lopsided : Rubric :=
  ⟨"Rubric", 10, [], [⟨"q", "", 10, [⟨"up", 2⟩, ⟨"down", -1⟩], []⟩]⟩

/-- Every name is registered. -/
def anyCheck : Registry := ⟨fun _ => true, fun _ => true⟩

/-- The rubric is accepted, and passing the first check alone earns twice the points. -/
theorem negative_weight_exceeds_points :
    validate anyCheck lopsided = [] ∧
      awardFor ⟨"q", "", 10, [⟨"up", 2⟩, ⟨"down", -1⟩], []⟩
        [⟨"up", .pass, 1, []⟩, ⟨"down", .fail, 0, []⟩] = 20 ∧
      (run ⟨[], .settled, fun _ j => if j = 0 then ⟨"up", .pass, 1, []⟩ else ⟨"down", .fail, 0, []⟩,
        false⟩ lopsided ⟨false, 0⟩).total = 20 ∧ lopsided.maxTotal = 10 := by
  decide +kernel

/-- A question with two checks of equal weight. -/
def balanced : Rubric :=
  ⟨"Rubric", 10, [], [⟨"q", "", 10, [⟨"up", 1 / 2⟩, ⟨"down", 1 / 2⟩], []⟩]⟩

/-- A rubric with equal weights. -/
theorem balanced_in_range : validate anyCheck balanced = [] ∧ InRange balanced := by
  have hvalid : validate anyCheck balanced = [] := by decide +kernel
  exact ⟨hvalid, (scores_in_range_iff anyCheck balanced hvalid).mpr (by decide +kernel)⟩

/-! ### Better scores -/

section Better

/-- The same question has earned no less. -/
def EarnedMore (p p' : String × ℚ) : Prop := p.1 = p'.1 ∧ p.2 ≤ p'.2

variable {earned earned' : List (String × ℚ)} (hearned : Forall₂ EarnedMore earned earned')

include hearned

theorem unmetDependency_mono {q : QuestionSpec} (hnamed : "" ∉ q.dependsOn)
    (h : unmetDependency q earned' ≠ "") : unmetDependency q earned ≠ "" := by
  have hlow : ∀ dep, (earned'.lookup dep).any (· ≤ 0) = true →
      (earned.lookup dep).any (· ≤ 0) = true := by
    intro dep
    clear h
    induction hearned with
    | nil => exact id
    | cons hp _ ih =>
      rw [lookup_cons, lookup_cons, hp.1]
      split
      · simpa using fun hle => hp.2.trans hle
      · exact ih
  unfold unmetDependency at h ⊢
  cases hfind : q.dependsOn.find? fun dep => (earned.lookup dep).any (· ≤ 0) with
  | none =>
    have hall := find?_eq_none.mp hfind
    rw [find?_eq_none.mpr fun dep hdep hunmet => hall dep hdep (hlow dep hunmet)] at h
    exact absurd rfl h
  | some dep => exact fun hempty => hnamed (hempty ▸ mem_of_find?_eq_some hfind)

variable {w w' : Encounter}

theorem sum_markQuestions_mono {qs : List QuestionSpec} (hnamed : ∀ q ∈ qs, "" ∉ q.dependsOn)
    (haward : ∀ q ∈ qs, ∀ i, 0 ≤ awardFor q (resultSet w i q) ∧
      awardFor q (resultSet w i q) ≤ awardFor q (resultSet w' i q)) (k : Nat) :
    ((markQuestions w k earned qs).map QuestionResult.awarded).sum ≤
      ((markQuestions w' k earned' qs).map QuestionResult.awarded).sum := by
  induction qs generalizing k earned earned' with
  | nil => exact le_refl _
  | cons q rest ih =>
    obtain ⟨hdeps, hnamed⟩ := forall_mem_cons.mp hnamed
    obtain ⟨hq, haward⟩ := forall_mem_cons.mp haward
    have hfirst : (markQuestion w earned k q).awarded ≤ (markQuestion w' earned' k q).awarded := by
      unfold markQuestion
      split_ifs with hunmet hunmet' hunmet'
      · exact le_refl _
      · exact (hq k).1.trans (hq k).2
      · exact absurd (unmetDependency_mono hearned hdeps hunmet') hunmet
      · exact (hq k).2
    simp only [markQuestions, map_cons, sum_cons]
    have hnow : EarnedMore (q.id, (markQuestion w earned k q).awarded)
        (q.id, (markQuestion w' earned' k q).awarded) := ⟨rfl, hfirst⟩
    exact add_le_add hfirst (ih (hearned.cons hnow) hnamed haward _)

omit hearned

/-- With weights that are not negative, better scores never make a lower total, also where
    a question is skipped for what another one earned. -/
theorem total_mono (reg : Registry) (r : Rubric) (h : validate reg r = [])
    (hweights : ∀ q ∈ r.questions, ∀ c ∈ q.checks, 0 ≤ c.weight) (opts : RunOptions)
    (hlab : w'.interiors = w.interiors ∧ w'.convergence = w.convergence)
    (hscores : ∀ i j, 0 ≤ (w.report i j).score)
    (hbetter : ∀ i j, (w.report i j).AtMost (w'.report i j)) :
    (run w r opts).total ≤ (run w' r opts).total := by
  have haccepted := Accepted.of_validate h
  have hgraded : ∀ rep, (graded w r rep).total ≤ (graded w' r rep).total := by
    intro rep
    simp only [graded, named_markQuestions haccepted]
    refine sum_markQuestions_mono .nil (fun q hq hempty => ?_) (fun q hq i => ⟨?_, ?_⟩) 0
    · obtain ⟨i, hi⟩ := getElem?_of_mem hq
      obtain ⟨j, p, -, hp, hid⟩ := haccepted.earlier i q hi "" hempty
      exact haccepted.named p (mem_of_getElem? hp) hid
    · refine awardFor_nonneg (hweights q hq) (haccepted.points q hq) ?_
      simpa [resultSet] using fun j _ => hscores i j
    · refine awardFor_mono (hweights q hq) (haccepted.points q hq) ?_
      simpa [resultSet, forall₂_same] using fun j _ => hbetter i j
  unfold run
  rw [hlab.1, hlab.2]
  dsimp only
  split_ifs
  · exact le_refl _
  · cases w.convergence with
    | cancelled | unobservable => exact le_refl _
    | unsettled | settled => exact hgraded _
  · exact hgraded _

end Better

/-- What two checks of a submission report: the first is right in part, the second fails. -/
def halfRight : Encounter :=
  ⟨[], .settled, fun _ j => if j = 0 then ⟨"up", .partly, 1 / 2, []⟩ else ⟨"down", .fail, 0, []⟩,
    false⟩

/-- A better one: the first passes, the second is right in part. -/
def mostlyRight : Encounter :=
  ⟨[], .settled, fun _ j => if j = 0 then ⟨"up", .pass, 1, []⟩ else ⟨"down", .partly, 1 / 4, []⟩,
    false⟩

/-- Better scores, a higher total. -/
theorem total_mono_balanced : (run halfRight balanced ⟨false, 0⟩).total = 5 / 2 ∧
    (run mostlyRight balanced ⟨false, 0⟩).total = 25 / 4 ∧
    (run halfRight balanced ⟨false, 0⟩).total ≤ (run mostlyRight balanced ⟨false, 0⟩).total := by
  refine ⟨by decide +kernel, by decide +kernel, total_mono anyCheck balanced (by decide +kernel)
    (by decide +kernel) _ ⟨rfl, rfl⟩ (fun _ j => ?_) fun _ j => ?_⟩
  · by_cases hj : j = 0 <;> simp [halfRight, hj]
  · simp only [halfRight, mostlyRight]
    split_ifs
    · exact ⟨rfl, by decide +kernel⟩
    · exact ⟨rfl, by decide +kernel⟩

/-! ### Questions without a verdict -/

/-- How many checks ended with a status. -/
def ended (s : Status) (results : List Result) : Nat := (results.filter (·.status = s)).length

theorem statusFor_excluded {q : QuestionSpec} {results : List Result}
    (hnone : ∀ x ∈ results, x.excluded = true) :
    statusFor (if 0 < q.points then awardFor q results / q.points else 0) = .fail := by
  have hcounted : counted q results = [] := by
    refine eq_nil_iff_forall_not_mem.mpr fun p hp => ?_
    obtain ⟨c, -, x, hx, hcounts, -⟩ := exists_of_mem_counted hp
    rw [hnone x hx] at hcounts
    cases hcounts
  have hzero : awardFor q results = 0 := by
    rw [awardFor_eq, hcounted]
    exact zero_mul _
  rw [hzero, zero_div, ite_self]
  norm_num [statusFor]

/-- If no check reached a verdict, the question is given to a person as one that was not
    assessed exactly if all its checks are broken, or are broken or not supported, or are
    broken or do not apply. -/
theorem unassessed_iff (q : QuestionSpec) (results : List Result)
    (hnone : ∀ x ∈ results, x.excluded = true) :
    let qr := questionResult q results
    (qr.needsReview = true ∧ (qr.status = .error ∨ qr.status = .unsupported)) ↔
      (0 < ended .error results ∧ ended .error results = q.checks.length) ∨
      (0 < ended .unsupported results ∧
        ended .unsupported results + ended .error results = q.checks.length) ∨
      (0 < ended .notApplicable results ∧ ended .unsupported results = 0 ∧
        ended .error results + ended .notApplicable results = q.checks.length) := by
  have hlen : ∀ s, (checksWith s results).length = ended s results := fun s => length_map _
  have hnil : ∀ s, checksWith s results = [] ↔ ended s results = 0 := fun s => by
    rw [← hlen, length_eq_zero_iff]
  have hinapplicable : (results.filter (·.status = .notApplicable)).length =
    ended .notApplicable results := rfl
  simp only [questionResult, statusFor_excluded hnone, hlen, hnil, hinapplicable, ne_eq]
  split_ifs with happly hunsupported hbroken
  · refine iff_of_true ⟨Bool.or_eq_true_iff.mpr (.inr (decide_eq_true happly)), .inl rfl⟩ ?_
    omega
  · refine iff_of_true ⟨by simp [hunsupported.1], .inr rfl⟩ ?_
    omega
  · refine iff_of_true ⟨by simp [hbroken.1], .inl rfl⟩ ?_
    omega
  · refine iff_of_false (by simp) ?_
    omega

/-- One check is broken, one does not apply: the question goes to a person. -/
theorem broken_question_reviewed :
    let qr := questionResult ⟨"q1", "", 1, [⟨"bgp", 1 / 2⟩, ⟨"ixp", 1 / 2⟩], []⟩
      [⟨"bgp", .error, 0, []⟩, ⟨"ixp", .notApplicable, 0, []⟩]
    qr.needsReview = true ∧ (qr.status = .error ∨ qr.status = .unsupported) :=
  (unassessed_iff _ _ (by decide)).mpr (by decide)

/-- One check is not supported and the other does not apply: the question fails. -/
theorem mixed_question_fails :
    (questionResult ⟨"q1", "", 1, [⟨"bgp", 1⟩, ⟨"ixp", 1⟩], []⟩
      [⟨"bgp", .unsupported, 0, []⟩, ⟨"ixp", .notApplicable, 0, []⟩]).status = .fail := by
  decide +kernel

end Grade

end Twinet
