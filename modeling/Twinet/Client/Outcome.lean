import Twinet.Client.Recovery
import Twinet.Lib.Machine

/-!
# What a Cluster Apply Reports

The report of a cluster apply against the state it leaves behind.

A report that the mutation is committed is always right: it is given only
after every node acknowledged its commit, and what follows keeps the committed
generation of every node.

A report that the prior generation was recovered is fixed by the phase that
failed, while the recovery decides from the state of the nodes. When every
commit took effect and only an answer was lost, the recovery finds a converged
commit and finalizes it, so the new generation is live everywhere and the
report says the opposite.

## Main definitions

* `preparedNodes`, `appliedNodes`, `committedNodes`: The cluster after each phase.
* `took`: The commit of a node takes effect.
* `applies`: Applies one after the other.

## Theorems

* `apply_cases`: How a run ends.
* `coordinatedApply_coherent`: An apply leaves every node coherent.
* `applies_settle`: So do any number of them, and success is reported truthfully.
* `apply_report_iff`: The two reports against the state they describe.
-/

namespace Twinet

namespace Client

open Agent

variable {ι : Type} [Fintype ι]

/-! ### The phases of an apply -/

variable {s : LabState} {g e pre : String} {f : Fate}

theorem Prior.prepare (h : Prior e s) : Prior e (handlePrepare e g pre f s).1 := by
  unfold handlePrepare prepareGeneration
  split_ifs with hsent hg hc
  · exact h
  · cases htx : s.tx with
    | some t | none => exact h
  · cases htx : s.tx with
    | some t => exact h
    | none =>
      refine ⟨h.1, fun t ht => ?_⟩
      obtain rfl := Option.some.inj ht
      exact ⟨hg, fun hc => absurd hc (by simp), fun _ => h.1⟩
  · exact h

theorem Prior.apply (h : Prior e s) : Prior e (handleApply g f s).1 := by
  fun_cases handleApply g f s with
  | case2 t htx | case3 t htx =>
    -- The transaction changes in its phase only.
    refine ⟨h.1, fun t' ht' => ?_⟩
    obtain rfl := Option.some.inj ht'
    exact h.2 t htx
  | _ => exact h

theorem opened_of_prepare
    (h : (handlePrepare e g pre f s).2 = true) : Opened g e pre (handlePrepare e g pre f s).1 := by
  unfold handlePrepare prepareGeneration at h ⊢
  cases htx : s.tx with
  | some t => simp [htx] at h
  | none =>
    simp only [htx] at h ⊢
    split_ifs at h ⊢ with hsent hg hc
    exact ⟨not_not.mp hc, _, rfl, rfl, not_not.mp hc, rfl, rfl⟩

/-- A node ready to commit: it applied the transaction it was prepared for. -/
def Ready (g e pre : String) (s : LabState) : Prop :=
  s.committed = e ∧ ∃ t, s.tx = some t ∧ t.generation = g ∧ t.previousGen = e ∧
    t.prestate = pre ∧ t.committed = false ∧ t.applied = true ∧ t.phase.failed = false

theorem Opened.apply (ho : Opened g e pre s)
    (h : (handleApply g f s).2 = true) : Ready g e pre (handleApply g f s).1 := by
  obtain ⟨hs, t, ht, hgen, hprev, hpre, hc⟩ := ho
  unfold handleApply at h ⊢
  simp only [ht] at h ⊢
  split_ifs at h ⊢
  exact ⟨hs, _, rfl, hgen, hprev, hpre, hc, rfl, rfl⟩

/-- A commit is refused only if it does not arrive or does not work. -/
theorem Ready.commit (hr : Ready g e pre s) :
    ¬ (f.delivered = true ∧ f.works = true) ∧ (handleCommit g f s).2 = false ∧
        Opened g e pre (handleCommit g f s).1 ∨
      (f.delivered = true ∧ f.works = true) ∧ Taken g e (handleCommit g f s).1 := by
  obtain ⟨hs, t, ht, hgen, hprev, hpre, hc, happ, hphase⟩ := hr
  unfold handleCommit
  simp only [ht, hgen, happ, hphase, hc, beq_self_eq_true, Bool.and_true, Bool.not_false,
    Bool.false_eq_true, if_false]
  split_ifs with hd hw
  · exact .inr ⟨⟨hd, hw⟩, rfl, _, rfl, rfl, hprev, rfl⟩
  · exact .inl ⟨fun h => hw h.2, rfl, hs, _, rfl, rfl, hprev, hpre, rfl⟩
  · exact .inl ⟨fun h => hd h.1, rfl, hs, t, ht, hgen, hprev, hpre, hc⟩

theorem closed_of_finalize
    (h : (handleFinalize g f s).2 = true) : (handleFinalize g f s).1.tx = none := by
  revert h
  fun_cases handleFinalize with
  | case2 => exact fun _ => rfl
  | _ => simp

/-! ### The whole run -/

section

variable (p : Pattern ι)

/-- The cluster after the prepare phase. -/
def preparedNodes (e g : String) (σ : ι → LabState) : ι → LabState :=
  fanOut (fun i => handlePrepare e g (p.prestate i) (p.prepare i)) σ

/-- The cluster after the apply phase. -/
def appliedNodes (e g : String) (σ : ι → LabState) : ι → LabState :=
  fanOut (fun i => handleApply g (p.apply i)) (preparedNodes p e g σ)

/-- The cluster after the commit phase. -/
def committedNodes (e g : String) (σ : ι → LabState) : ι → LabState :=
  fanOut (fun i => handleCommit g (p.commit i)) (appliedNodes p e g σ)

/-- The run gets as far as asking the nodes to commit. -/
def reachesCommit (e g : String) (σ : ι → LabState) : Prop :=
  p.begins = true ∧ (∀ i, (σ i).committed = e) ∧ g ≠ "" ∧
    answeredAll (fun i => handlePrepare e g (p.prestate i) (p.prepare i)) p.prepare σ = true ∧
    answeredAll (fun i => handleApply g (p.apply i)) p.apply (preparedNodes p e g σ) = true ∧
    p.appliedChecks = true

/-- The commit of a node takes effect, whether or not its answer gets back. -/
def took (e g : String) (σ : ι → LabState) (i : ι) : Prop :=
  reachesCommit p e g σ ∧ (p.commit i).delivered = true ∧ (p.commit i).works = true

end

variable {σ : ι → LabState} {p : Pattern ι}

theorem ready_of_reachesCommit (h : reachesCommit p e g σ)
    (i : ι) : Ready g e (p.prestate i) (appliedNodes p e g σ i) := by
  obtain ⟨-, -, -, hprepare, happly, -⟩ := h
  have hopened : Opened g e (p.prestate i) (preparedNodes p e g σ i) :=
    opened_of_prepare (of_decide_eq_true hprepare i).1
  exact hopened.apply (of_decide_eq_true happly i).1

/-- The cluster after the finalize phase. -/
def finalizedNodes (p : Pattern ι) (e g : String) (σ : ι → LabState) : ι → LabState :=
  fanOut (fun i => handleFinalize g (p.finalize i)) (committedNodes p e g σ)

theorem coordinatedApply_eq (p : Pattern ι) (e g : String) (σ : ι → LabState) :
    coordinatedApply p e g σ =
      if !p.begins || decide (∃ i, (σ i).committed ≠ e) || g == "" then (.notCommitted, σ)
      else if !answeredAll (fun i => handlePrepare e g (p.prestate i) (p.prepare i))
          p.prepare σ then
        recoverFailedApply p (preparedNodes p e g σ)
      else if !answeredAll (fun i => handleApply g (p.apply i)) p.apply (preparedNodes p e g σ) ||
          !p.appliedChecks then
        recoverFailedApply p (appliedNodes p e g σ)
      else if !answeredAll (fun i => handleCommit g (p.commit i)) p.commit
          (appliedNodes p e g σ) then
        recoverFailedApply p (committedNodes p e g σ)
      else if !answeredAll (fun i => handleFinalize g (p.finalize i)) p.finalize
          (committedNodes p e g σ) then
        (.committed, finalizedNodes p e g σ)
      else if !verifyCommitted p g (finalizedNodes p e g σ) then
        (.committed, finalizedNodes p e g σ)
      else if !p.leaseAtEnd then (.committed, (recoverWithLease p (finalizedNodes p e g σ)).2)
      else (.done, finalizedNodes p e g σ) :=
  rfl

/-- How a run ends: before anything was sent, in a recovery before the commit
    phase, in a recovery after it, or with every commit acknowledged. -/
theorem apply_cases (p : Pattern ι) (e g : String) (σ : ι → LabState) :
    coordinatedApply p e g σ = (.notCommitted, σ) ∨
    ((∀ i, (σ i).committed = e) ∧ ¬ reachesCommit p e g σ ∧
      (coordinatedApply p e g σ = recoverFailedApply p (preparedNodes p e g σ) ∨
        coordinatedApply p e g σ = recoverFailedApply p (appliedNodes p e g σ))) ∨
    (reachesCommit p e g σ ∧
      coordinatedApply p e g σ = recoverFailedApply p (committedNodes p e g σ)) ∨
    (reachesCommit p e g σ ∧ (∀ i, took p e g σ i) ∧
      (coordinatedApply p e g σ).1 ≠ .recovered ∧
      ∀ i, Kept (committedNodes p e g σ i) ((coordinatedApply p e g σ).2 i)) := by
  rw [coordinatedApply_eq]
  -- one case for each place where the apply may return
  split_ifs with hstart hprepare happly hcommit hfinalize hverify hlease
  · exact .inl rfl
  all_goals
    simp only [Bool.or_eq_true, Bool.not_eq_true', decide_eq_true_eq, beq_iff_eq, not_or,
      not_exists, not_not, Bool.not_eq_false] at hstart
    obtain ⟨⟨hbegins, hexpected⟩, hg⟩ := hstart
  · exact .inr (.inl ⟨hexpected, fun hr => by simp [hr.2.2.2.1] at hprepare, .inl rfl⟩)
  · refine .inr (.inl ⟨hexpected, fun hr => ?_, .inr rfl⟩)
    obtain ⟨-, -, -, -, ha, hc⟩ := hr
    rw [hc, Bool.not_true, Bool.or_false] at happly
    exact absurd (happly.symm.trans (congrArg (!·) ha)) (by simp)
  all_goals
    simp only [Bool.or_eq_true, Bool.not_eq_true', not_or, Bool.not_eq_false] at hprepare happly
    have hreach : reachesCommit p e g σ := ⟨hbegins, hexpected, hg, hprepare, happly⟩
  · exact .inr (.inr (.inl ⟨hreach, rfl⟩))
  all_goals
    simp only [Bool.not_eq_true', Bool.not_eq_false] at hcommit
    refine .inr (.inr (.inr ⟨hreach, fun i => ⟨hreach,
      ((ready_of_reachesCommit hreach i).commit.resolve_left fun hn =>
        nomatch (of_decide_eq_true hcommit i).1.symm.trans hn.2.1).1⟩, by simp, fun i => ?_⟩))
  · exact finalize_kept _ _ _
  · exact finalize_kept _ _ _
  · -- after the finalization a recovery finds nothing open
    simp only [Bool.not_eq_true', Bool.not_eq_false] at hfinalize
    refine (finalize_kept g (p.finalize i) _).trans (recover_of_closed (fun j => ?_) i)
    exact closed_of_finalize (of_decide_eq_true hfinalize j).1
  · exact finalize_kept _ _ _

omit [Fintype ι] in
theorem fanOut_coherent {handle : ι → LabState → LabState × Bool}
    (hstep : ∀ i s, Coherent s → Coherent (handle i s).1) (h : ∀ i, Coherent (σ i)) (i : ι) :
    Coherent (fanOut handle σ i) :=
  hstep i (σ i) (h i)

theorem recover_coherent (h : ∀ i, Coherent (σ i)) (i : ι) :
    Coherent ((recoverWithLease p σ).2 i) := by
  have hfirst : ∀ j, Coherent (firstPass p σ j) := fanOut_coherent (fun _ _ => coherent_recover) h
  have hsecond : Coherent (secondPass p σ i) := by
    refine fanOut_coherent (fun j s hs => ?_) hfirst i
    unfold abandonSplit
    split_ifs
    · exact coherent_recover hs
    · exact hs
  obtain ⟨hcommitted, -, htx | hnone⟩ := recover_kept p σ i
  · exact fun t ht => hcommitted ▸ hsecond t (htx ▸ ht)
  · exact coherent_of_none hnone

omit [Fintype ι] in
theorem committed_coherent (p : Pattern ι) (e g : String) (h : ∀ i, Coherent (σ i)) :
    (∀ i, Coherent (preparedNodes p e g σ i)) ∧ (∀ i, Coherent (appliedNodes p e g σ i)) ∧
      ∀ i, Coherent (committedNodes p e g σ i) := by
  have hprepared : ∀ i, Coherent (preparedNodes p e g σ i) :=
    fanOut_coherent (fun _ _ => coherent_prepare) h
  have happlied : ∀ i, Coherent (appliedNodes p e g σ i) :=
    fanOut_coherent (fun _ _ => coherent_apply) hprepared
  exact ⟨hprepared, happlied, fanOut_coherent (fun _ _ => coherent_commit) happlied⟩

/-- However it ends, an apply leaves coherent nodes. -/
theorem coordinatedApply_coherent (p : Pattern ι) (e g : String) (h : ∀ i, Coherent (σ i))
    (i : ι) : Coherent ((coordinatedApply p e g σ).2 i) := by
  obtain ⟨hprepared, happlied, hcommitted⟩ := committed_coherent p e g h
  have hfinalized : ∀ j, Coherent (finalizedNodes p e g σ j) :=
    fanOut_coherent (fun _ _ => coherent_finalize) hcommitted
  rw [coordinatedApply_eq]
  split_ifs
  · exact h i
  · exact recover_coherent hprepared i
  · exact recover_coherent happlied i
  · exact recover_coherent hcommitted i
  · exact hfinalized i
  · exact hfinalized i
  · exact recover_coherent hfinalized i
  · exact hfinalized i

theorem finalized_of_done (h : (coordinatedApply p e g σ).1 = .done) :
    (∀ i, (handleFinalize g (p.finalize i) (committedNodes p e g σ i)).2 = true) ∧
      (coordinatedApply p e g σ).2 = finalizedNodes p e g σ := by
  rw [coordinatedApply_eq] at h ⊢
  split_ifs at h ⊢ with hstart hprepare happly hcommit hfinalize hverify hlease
  all_goals try simp [recoverFailedApply, ite_eq_iff] at h
  simp only [Bool.not_eq_true', Bool.not_eq_false] at hfinalize
  exact ⟨fun i => (of_decide_eq_true hfinalize i).1, rfl⟩

/-- The two reports against the state they describe. A report that the mutation
    is committed is right on every run: each node is as its commit left it. A
    report that the prior generation was recovered is right exactly when no
    commit took effect, or when some node did not commit and reports a
    generation of its own by which the recovery can tell, or when the two
    generations are the same. -/
theorem apply_report_iff (p : Pattern ι) (e g : String) (σ : ι → LabState)
    (hσ : ∀ i, Coherent (σ i)) :
    ((coordinatedApply p e g σ).1 = .committed →
      ∀ i, ((coordinatedApply p e g σ).2 i).committed = g ∧
        Kept (committedNodes p e g σ i) ((coordinatedApply p e g σ).2 i)) ∧
    ((coordinatedApply p e g σ).1 = .recovered →
      ((∀ i, ((coordinatedApply p e g σ).2 i).committed = e) ↔
        g = e ∨ (∀ i, ¬ took p e g σ i) ∨
          ∃ i, ¬ took p e g σ i ∧ (e ≠ "" ∨ p.prestate i ≠ g))) := by
  have hrecovered : ∀ τ, (recoverFailedApply p τ).1 = .recovered →
      (recoverWithLease p τ).1 = true := by
    intro τ h
    simp only [recoverFailedApply] at h
    split_ifs at h with hok
    exact hok
  have hreport : ∀ τ, (recoverFailedApply p τ).1 ≠ .committed := by
    intro τ
    simp only [recoverFailedApply]
    split_ifs <;> simp
  rcases apply_cases p e g σ with hrun | ⟨hexp, hno, hrun⟩ | ⟨hreach, hrun⟩ |
    ⟨hreach, hall, hne, hkept⟩
  · rw [hrun]
    exact ⟨fun h => absurd h (by simp), fun h => absurd h (by simp)⟩
  · -- Nothing was committed: every node is still at the prior generation.
    have hnone : ∀ i, ¬ took p e g σ i := fun i ht => hno ht.1
    have hprior : ∀ i, Prior e (σ i) := fun i => prior_of_coherent (hσ i) (hexp i)
    obtain ⟨τ, hτ, hrun⟩ : ∃ τ, (∀ i, Prior e (τ i)) ∧
        coordinatedApply p e g σ = recoverFailedApply p τ := by
      rcases hrun with hrun | hrun
      · exact ⟨_, fun i => (hprior i).prepare, hrun⟩
      · exact ⟨_, fun i => (hprior i).prepare.apply, hrun⟩
    rw [hrun]
    refine ⟨fun h => absurd h (hreport _), fun h => ?_⟩
    exact iff_of_true (recover_of_prior hτ (hrecovered _ h)) (.inr (.inl hnone))
  · rw [hrun]
    refine ⟨fun h => absurd h (hreport _), fun h => ?_⟩
    have hcommits := fun i => (ready_of_reachesCommit hreach i).commit (f := p.commit i)
    have hopen : ∀ i, ¬ took p e g σ i → Opened g e (p.prestate i) (committedNodes p e g σ i) :=
      fun i hi => (hcommits i).resolve_right (fun ht => hi ⟨hreach, ht.1⟩) |>.2.2
    have htake : ∀ i, took p e g σ i → Taken g e (committedNodes p e g σ i) :=
      fun i hi => (hcommits i).resolve_left (fun hn => hn.1 hi.2) |>.2
    by_cases hsome : ∃ i, took p e g σ i
    · have hcommit := recover_of_commit hopen htake hsome (hrecovered _ h)
      refine hcommit.trans (or_congr_right ?_)
      exact ⟨.inr, fun hc => hc.resolve_left (fun hn => hsome.elim hn)⟩
    · have hnone : ∀ i, ¬ took p e g σ i := not_exists.mp hsome
      exact iff_of_true (recover_of_prior (fun i => (hopen i (hnone i)).prior hreach.2.2.1)
        (hrecovered _ h)) (.inr (.inl hnone))
  · refine ⟨fun _ i => ⟨?_, hkept i⟩, fun h => absurd h hne⟩
    have htaken : Taken g e (committedNodes p e g σ i) :=
      (ready_of_reachesCommit hreach i).commit.resolve_left (fun hn => hn.1 (hall i).2) |>.2
    exact (hkept i).1.trans htaken.1

/-- A request that goes well. -/
def Fate.good : Fate :=
  { delivered := true, journals := true, works := true, consistent := true, answered := true }

open Fate

/-- A run in which everything goes well but for the commits, which are as
    given. -/
def Pattern.ofCommits (commit : Fin 2 → Fate) : Pattern (Fin 2) :=
  { begins := true, prestate := fun _ => "g1", prepare := fun _ => good
    apply := fun _ => good, appliedChecks := true, commit := commit
    finalize := fun _ => good, verify := fun _ => good, leaseAtEnd := true
    recover := fun _ => good, observe := fun _ => good, abandon := fun _ => good
    reobserve := fun _ => good, finish := fun _ => good, settle := fun _ => good
    leaseInRecovery := true }

/-- Two nodes at one committed generation. -/
def atRest (generation : String) : Fin 2 → LabState :=
  fun _ => { committed := generation, inventory := some generation, tx := none }

/-- Both nodes commit and one answer is lost: the prior generation is reported
    as recovered, and the new one is live on both. -/
theorem lost_answer_misreported :
    (coordinatedApply
        (Pattern.ofCommits fun i => { good with answered := decide (i = 0) })
        "g1" "g2" (atRest "g1")).1 = .recovered ∧
      ∀ i, ((coordinatedApply
        (Pattern.ofCommits fun i => { good with answered := decide (i = 0) })
        "g1" "g2" (atRest "g1")).2 i).committed = "g2" := by
  decide

/-- One node never receives its commit: the other's is abandoned, and the
    report is right. -/
theorem lost_commit_recovered :
    (coordinatedApply
        (Pattern.ofCommits fun i => { good with delivered := decide (i = 0) })
        "g1" "g2" (atRest "g1")).1 = .recovered ∧
      ∀ i, ((coordinatedApply
        (Pattern.ofCommits fun i => { good with delivered := decide (i = 0) })
        "g1" "g2" (atRest "g1")).2 i).committed = "g1" := by
  have hreport := apply_report_iff
    (Pattern.ofCommits fun i => { good with delivered := decide (i = 0) }) "g1" "g2"
    (atRest "g1") (fun _ => coherent_of_none rfl)
  refine ⟨by decide, (hreport.2 (by decide)).mpr (.inr (.inr ⟨1, ?_, .inl (by decide)⟩))⟩
  exact fun h => absurd h.2.1 (by decide)

/-! ### Many applies -/

theorem committed_of_finalize (hs : Coherent s)
    (h : (handleFinalize g f s).2 = true) : (handleFinalize g f s).1.committed = g := by
  revert h
  fun_cases handleFinalize with
  | case2 t htx hsent =>
    simp only [Bool.and_eq_true, beq_iff_eq] at hsent
    obtain ⟨-, hcommitted⟩ := hs t htx
    rw [if_pos hsent.1.2, hsent.1.1.2] at hcommitted
    exact fun _ => hcommitted
  | _ => simp

/-- Applies one after the other, each with the generation it expects and the one it makes. -/
def applies : Machine (ι → LabState) (Pattern ι × String × String) Report :=
  ⟨fun σ a => let r := coordinatedApply a.1 a.2.1 a.2.2 σ; (r.2, [r.1])⟩

/-- On a cluster that begins without transactions, each of any number of applies leaves
    every node coherent, and one that reports success leaves every node at its generation
    with nothing in the journal. -/
theorem applies_settle (σ : ι → LabState) (hrest : ∀ i, (σ i).tx = none)
    (before : List (Pattern ι × String × String)) (p : Pattern ι) (e g : String) :
    let r := coordinatedApply p e g (applies.run σ before)
    (∀ i, Coherent (r.2 i)) ∧ (r.1 = .done → ∀ i, (r.2 i).committed = g ∧ (r.2 i).tx = none) := by
  have hbefore := applies.invariant_run (fun σ => ∀ i, Coherent (σ i))
    (fun σ a h => coordinatedApply_coherent a.1 a.2.1 a.2.2 h) σ before
    fun i => coherent_of_none (hrest i)
  refine ⟨coordinatedApply_coherent p e g hbefore, fun hdone i => ?_⟩
  obtain ⟨hfinalize, hend⟩ := finalized_of_done hdone
  rw [hend]
  exact ⟨committed_of_finalize ((committed_coherent p e g hbefore).2.2 i) (hfinalize i),
    closed_of_finalize (hfinalize i)⟩

/-- Two applies, one after the other. -/
theorem applies_settle_sample :
    let all := Pattern.ofCommits fun _ => good
    let r := coordinatedApply all "g2" "g3" (applies.run (atRest "g1") [(all, "g1", "g2")])
    r.1 = .done ∧ ∀ i, (r.2 i).committed = "g3" ∧ (r.2 i).tx = none := by
  refine ⟨by decide, (applies_settle (atRest "g1") (fun _ => rfl) _ _ _ _).2 (by decide)⟩

end Client

end Twinet
