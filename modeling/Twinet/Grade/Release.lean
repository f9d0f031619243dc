import Twinet.Grade.Report

/-!
# Released Reports

A report that is given out without a person looking at it must rest on judgements
about the submission. Every check that counts has to have reached a verdict, and a
question may only be left out because of what the submission failed at.

The second is a matter of chains. A skipped question earns nothing, and so the
questions that depend on it are skipped in turn. Each chain has to begin with a
question that was assessed. Since a question depends on earlier ones only, the
induction is on where it stands.

A check that says of itself that it was skipped is counted as a failed one, and the
question is not held back. No check does, but nothing keeps one from it.

## Main definitions

* `Status.Verdict`: A judgement, or that there is nothing to judge.
* `DependsOn`: A question depends on another one.
* `Assessed`: What a report rests on that can be given out.

## Theorems

* `verdict_of_result`, `exists_decided`: What a question that is not held back rests on.
* `exists_assessed`: Where a chain of skipped questions begins.
* `released_marks_assessed`: A released report rests on verdicts.
-/

namespace Twinet

namespace Grade

open List

/-- A judgement about the submission. -/
def Status.Decided (s : Status) : Prop := s = .pass ∨ s = .partly ∨ s = .fail

/-- A judgement, or that there is nothing to judge. -/
def Status.Verdict (s : Status) : Prop := s.Decided ∨ s = .notApplicable

instance (s : Status) : Decidable s.Decided := inferInstanceAs (Decidable (_ ∨ _))

/-- A question of the rubric depends on another one. -/
def DependsOn (r : Rubric) (q p : QuestionSpec) : Prop :=
  q ∈ r.questions ∧ p ∈ r.questions ∧ p.id ∈ q.dependsOn

/-- What a report rests on that can be given out. -/
structure Assessed (r : Rubric) (w : Encounter) (rep : Report) : Prop where
  complete : rep.questions.length = r.questions.length
  /-- Every check of a question that was not skipped reached a verdict. -/
  verdict : ∀ (i : Nat) (q : QuestionSpec) (qr : QuestionResult), r.questions[i]? = some q →
    rep.questions[i]? = some qr → qr.status ≠ .skipped →
      ∀ j < q.checks.length, (w.report i j).status.Verdict
  /-- A question that was skipped leads to one that was judged and earned nothing. -/
  origin : ∀ (i : Nat) (q : QuestionSpec) (qr : QuestionResult), r.questions[i]? = some q →
    rep.questions[i]? = some qr → qr.status = .skipped →
      ∃ (k : Nat) (p : QuestionSpec) (pr : QuestionResult), r.questions[k]? = some p ∧
        rep.questions[k]? = some pr ∧ Relation.TransGen (DependsOn r) q p ∧
          pr.status ≠ .skipped ∧ (∃ j < p.checks.length, (w.report k j).status.Decided) ∧
            pr.awarded = 0

/-! ### Questions that are not held back -/

section Question

variable {q : QuestionSpec} {results : List Result}

theorem statusFor_ne_skipped (fraction : ℚ) : statusFor fraction ≠ .skipped := by
  unfold statusFor
  split_ifs <;> decide

theorem status_questionResult (q : QuestionSpec) (results : List Result) :
    (questionResult q results).status ≠ .skipped := by
  simp only [questionResult]
  split_ifs
  · decide
  · decide
  · decide
  · exact statusFor_ne_skipped _
  · exact statusFor_ne_skipped _

theorem checksWith_eq_nil_iff {s : Status} :
    checksWith s results = [] ↔ ∀ x ∈ results, x.status ≠ s := by
  simp [checksWith, filter_eq_nil_iff]

section

variable (h : (questionResult q results).needsReview = false)

include h

theorem of_not_needsReview :
    (∀ x ∈ results, x.status ≠ .error) ∧ (∀ x ∈ results, x.status ≠ .unsupported) ∧
      ((results.filter (·.status = .notApplicable)).length = q.checks.length →
        q.checks.length = 0) := by
  simp only [questionResult, Bool.or_eq_false_iff, decide_eq_false_iff_not, not_not] at h
  obtain ⟨⟨⟨-, hbroken⟩, hunsupported⟩, hassessed⟩ := h
  refine ⟨checksWith_eq_nil_iff.mp hbroken, checksWith_eq_nil_iff.mp hunsupported, fun hall => ?_⟩
  rw [hbroken, hunsupported] at hassessed
  simp only [length_nil, Nat.zero_add, and_true, not_and, Nat.not_lt, Nat.le_zero] at hassessed
  rw [← hall]
  exact hassessed hall

/-- Without a skipped check every check has a verdict. -/
theorem verdict_of_result
    (hreported : ∀ x ∈ results, x.status ≠ .skipped) : ∀ x ∈ results, x.status.Verdict := by
  intro x hx
  obtain ⟨hbroken, hunsupported, -⟩ := of_not_needsReview h
  have herror := hbroken x hx
  have hnos := hunsupported x hx
  have hskipped := hreported x hx
  unfold Status.Verdict Status.Decided
  cases hstatus : x.status <;> simp_all

/-- Some check judged the submission. -/
theorem exists_decided (hreported : ∀ x ∈ results, x.status ≠ .skipped)
    (hlength : results.length = q.checks.length)
    (hchecked : q.checks ≠ []) : ∃ x ∈ results, x.status.Decided := by
  by_contra hnone
  have hall : ∀ x ∈ results, x.status = .notApplicable := by
    intro x hx
    exact (verdict_of_result h hreported x hx).resolve_left fun hdecided => hnone ⟨x, hx, hdecided⟩
  have hfilter : results.filter (·.status = .notApplicable) = results := by
    rw [filter_eq_self]
    exact fun x hx => decide_eq_true (hall x hx)
  obtain ⟨-, -, hassessed⟩ := of_not_needsReview h
  rw [hfilter] at hassessed
  exact hchecked (length_eq_zero_iff.mp (hassessed hlength))

end

end Question

/-! ### Chains of skipped questions -/

section Chains

variable {w : Encounter} {r : Rubric}

theorem length_resultSet (i : Nat) (q : QuestionSpec) :
    (resultSet w i q).length = q.checks.length := by
  rw [resultSet, length_map, length_range]

theorem mem_resultSet {i j : Nat} {q : QuestionSpec} (hj : j < q.checks.length) :
    w.report i j ∈ resultSet w i q :=
  mem_map_of_mem (mem_range.mpr hj)

theorem forall_mem_resultSet {P : Result → Prop} (h : ∀ i j, P (w.report i j)) (i : Nat)
    (q : QuestionSpec) : ∀ x ∈ resultSet w i q, P x := by
  intro x hx
  obtain ⟨j, -, rfl⟩ := mem_map.mp hx
  exact h i j

theorem markQuestion_cases (earned : List (String × ℚ)) (i : Nat) (q : QuestionSpec) :
    ((markQuestion w earned i q).status = .skipped ∧
        ∃ dep ∈ q.dependsOn, ∃ v ≤ 0, (dep, v) ∈ earned) ∨
      markQuestion w earned i q = questionResult q (resultSet w i q) := by
  unfold markQuestion
  by_cases hmet : unmetDependency q earned = ""
  · rw [if_neg (not_not.mpr hmet)]
    exact .inr rfl
  · rw [if_pos hmet]
    refine .inl ⟨rfl, ?_⟩
    unfold unmetDependency at hmet
    cases hfind : q.dependsOn.find? fun dep => (earned.lookup dep).any (· ≤ 0) with
    | none =>
      rw [hfind] at hmet
      exact absurd rfl hmet
    | some dep =>
      have hearned := find?_some hfind
      obtain ⟨v, hlook, hv⟩ := Option.any_eq_true _ _ |>.mp hearned
      obtain ⟨before, after, heq, -⟩ := lookup_eq_some_iff.mp hlook
      refine ⟨dep, mem_of_find?_eq_some hfind, v, of_decide_eq_true hv, ?_⟩
      rw [heq]
      exact mem_append_right before mem_cons_self

/-- What is not skipped is judged by its checks. -/
theorem eq_questionResult {qs : List QuestionSpec} {i : Nat} {q : QuestionSpec}
    {qr : QuestionResult} (hq : qs[i]? = some q)
    (hqr : (markQuestions w 0 [] qs)[i]? = some qr) (h : qr.status ≠ .skipped) :
    qr = questionResult q (resultSet w i q) := by
  obtain ⟨earned, hmark, -⟩ := @getElem?_markQuestions w 0 [] _ _ _ hq
  rw [hqr, Option.some.injEq, zero_add] at hmark
  rcases markQuestion_cases earned i q with ⟨hskipped, -⟩ | hjudged
  · exact absurd (hmark ▸ hskipped) h
  · rw [hmark, hjudged]

variable (haccepted : Accepted r)
  (hweights : ∀ q ∈ r.questions, ∀ c ∈ q.checks, 0 ≤ c.weight)
  (hscores : ∀ i j, 0 ≤ (w.report i j).score)
  (hreported : ∀ i j, (w.report i j).status ≠ .skipped)
  (hreview : ∀ qr ∈ markQuestions w 0 [] r.questions, qr.needsReview = false)

include haccepted hweights hscores hreported hreview in
/-- A chain of skipped questions begins with an assessed one. -/
theorem exists_assessed (i : Nat) : ∀ (q : QuestionSpec) (qr : QuestionResult),
    r.questions[i]? = some q → (markQuestions w 0 [] r.questions)[i]? = some qr →
      qr.status = .skipped → ∃ (k : Nat) (p : QuestionSpec) (pr : QuestionResult),
        r.questions[k]? = some p ∧ (markQuestions w 0 [] r.questions)[k]? = some pr ∧
          Relation.TransGen (DependsOn r) q p ∧ pr.status ≠ .skipped ∧
            (∃ j < p.checks.length, (w.report k j).status.Decided) ∧ pr.awarded = 0 := by
  induction i using Nat.strong_induction_on with
  | h i ih =>
    intro q qr hq hqr hskipped
    obtain ⟨earned, hmark, hearned⟩ := @getElem?_markQuestions w 0 [] _ _ _ hq
    rw [hqr, Option.some.injEq] at hmark
    rcases markQuestion_cases earned (0 + i) q with ⟨-, dep, hdep, v, hv, hmem⟩ | hassessed
    · -- the blocker earned nothing, for it was skipped itself or for what it found
      rcases hearned dep v hmem with hnil | ⟨j, hj, p, pr, hp, hpr, rfl, rfl⟩
      · cases hnil
      have hedge : DependsOn r q p :=
        ⟨mem_of_getElem? hq, mem_of_getElem? hp, hdep⟩
      by_cases hpskipped : pr.status = .skipped
      · obtain ⟨k, p', pr', hp', hpr', hchain, hrest⟩ := ih j hj p pr hp hpr hpskipped
        exact ⟨k, p', pr', hp', hpr', hchain.head hedge, hrest⟩
      · have hresult := eq_questionResult hp hpr hpskipped
        have hpmem := mem_of_getElem? hp
        have hreviewP : (questionResult p (resultSet w j p)).needsReview = false :=
          hresult ▸ hreview pr (mem_of_getElem? hpr)
        obtain ⟨x, hx, hdecided⟩ := exists_decided hreviewP
          (forall_mem_resultSet hreported j p) (length_resultSet j p)
          (haccepted.checked p hpmem)
        obtain ⟨c, hc, rfl⟩ := mem_map.mp hx
        refine ⟨j, p, pr, hp, hpr, Relation.TransGen.single hedge, hpskipped,
          ⟨c, mem_range.mp hc, hdecided⟩, le_antisymm hv ?_⟩
        rw [hresult]
        exact awardFor_nonneg (hweights p hpmem) (haccepted.points p hpmem)
          (forall_mem_resultSet hscores j p)
    · rw [hmark, hassessed] at hskipped
      exact absurd hskipped (status_questionResult q _)

end Chains

theorem CheckSpec.weight_nonneg {c : CheckSpec} (h : 0 < c.effectiveWeight) : 0 ≤ c.weight := by
  unfold effectiveWeight at h
  by_cases hzero : c.weight = 0
  · rw [hzero]
  · rw [if_neg hzero] at h
    exact h.le

/-- For every accepted rubric with positive weights and everything a run can meet in
    which no check says that it was skipped: if the report can be given out, every check
    of a question that was not skipped reached a verdict, and every question that was
    skipped leads by dependencies to one that was judged by a check and earned zero. -/
theorem released_marks_assessed (reg : Registry) (r : Rubric) (w : Encounter)
    (opts : RunOptions) (hvalid : validate reg r = [])
    (hweights : ∀ q ∈ r.questions, ∀ c ∈ q.checks, 0 < c.effectiveWeight)
    (hscores : ∀ i j, 0 ≤ (w.report i j).score)
    (hreported : ∀ i j, (w.report i j).status ≠ .skipped)
    (hreleased : (run w r opts).Releasable) : Assessed r w (run w r opts) := by
  have haccepted := Accepted.of_validate hvalid
  obtain ⟨hquestions, hreview⟩ := questions_run haccepted hreleased
  refine ⟨?_, ?_, ?_⟩
  · rw [hquestions, length_markQuestions]
  · intro i q qr hq hqr hnot j hj
    rw [hquestions] at hqr
    have hreviewQ : (questionResult q (resultSet w i q)).needsReview = false :=
      eq_questionResult hq hqr hnot ▸ hreview qr (mem_of_getElem? hqr)
    exact verdict_of_result hreviewQ (forall_mem_resultSet hreported i q) _ (mem_resultSet hj)
  · intro i q qr hq hqr hskipped
    rw [hquestions] at hqr ⊢
    exact exists_assessed haccepted
      (fun p hp c hc => CheckSpec.weight_nonneg (hweights p hp c hc)) hscores hreported hreview
      i q qr hq hqr hskipped

/-- Two questions, of which the second depends on the first. -/
def dependent : Rubric :=
  ⟨"Rubric", 10, [], [⟨"base", "", 4, [⟨"up", 1⟩], []⟩, ⟨"top", "", 6, [⟨"over", 1⟩], ["base"]⟩]⟩

/-- The first question fails, and so the second is not assessed. -/
def failing : Encounter := ⟨[], .settled, fun _ _ => ⟨"up", .fail, 0, []⟩, false⟩

/-- The report can be given out. -/
theorem failing_assessed : (run failing dependent ⟨false, 0⟩).Releasable ∧
    Assessed dependent failing (run failing dependent ⟨false, 0⟩) := by
  have hreleased : (run failing dependent ⟨false, 0⟩).Releasable := by decide +kernel
  refine ⟨hreleased, released_marks_assessed anyCheck dependent failing ⟨false, 0⟩
    (by decide +kernel) (by decide +kernel) (fun _ _ => le_refl _) (fun _ _ => ?_) hreleased⟩
  exact fun h => Status.noConfusion h

/-- A check says that it was skipped. -/
def shrugging : Encounter := ⟨[], .settled, fun _ _ => ⟨"up", .skipped, 0, []⟩, false⟩

/-- A check that reports itself as skipped is counted as failed in a report that can be
    given out. -/
theorem skipped_check_released :
    validate anyCheck dependent = [] ∧ (run shrugging dependent ⟨false, 0⟩).Releasable ∧
      (run shrugging dependent ⟨false, 0⟩).total = 0 ∧
      ¬ Assessed dependent shrugging (run shrugging dependent ⟨false, 0⟩) := by
  refine ⟨by decide +kernel, by decide +kernel, by decide +kernel, fun h => ?_⟩
  have hverdict := h.verdict 0 ⟨"base", "", 4, [⟨"up", 1⟩], []⟩
    (questionResult ⟨"base", "", 4, [⟨"up", 1⟩], []⟩ [⟨"up", .skipped, 0, []⟩]) rfl rfl
    (status_questionResult _ _) 0 zero_lt_one
  rcases hverdict with (hpass | hpartly | hfail) | hna
  · cases hpass
  · cases hpartly
  · cases hfail
  · cases hna

end Grade

end Twinet
