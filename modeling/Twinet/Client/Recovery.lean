import Twinet.Client.Apply

/-!
# Recovery of a Failed Apply

Where a recovery takes a cluster, by what its nodes had done when it began.

A recovery asks every node to roll back, abandons the commits of a split, and
finalizes a commit that every node turns out to hold. None of its decisions
looks at the phase in which the apply failed.

## Main definitions

* `Prior`, `Opened`, `Taken`, `Kept`: What a node has done of an apply.
* `firstPass`, `secondPass`: The cluster after each pass of a recovery.

## Theorems

* `recover_of_prior`: Recovery keeps a cluster that has not committed at the
  generation it started from.
* `recover_of_closed`: Recovery leaves a finalized cluster alone.
* `recover_of_commit`: Where recovery leads when some nodes committed.
-/

namespace Twinet

namespace Client

open Agent Option Bool

variable {ι : Type} [Fintype ι] {σ : ι → LabState} {p : Pattern ι} {s : LabState}

/-- A node at the generation `e`, whatever transaction it still holds. -/
def Prior (e : String) (s : LabState) : Prop :=
  s.committed = e ∧ ∀ t, s.tx = some t → t.generation ≠ "" ∧
    (t.committed = true → t.generation = e) ∧ (t.committed = false → t.previousGen = e)

/-- A node that holds a transaction of `g` over `e` and has not committed it. -/
def Opened (g e pre : String) (s : LabState) : Prop :=
  s.committed = e ∧ ∃ t, s.tx = some t ∧ t.generation = g ∧ t.previousGen = e ∧
    t.prestate = pre ∧ t.committed = false

/-- A node that committed a transaction of `g` over `e`. -/
def Taken (g e : String) (s : LabState) : Prop :=
  s.committed = g ∧ ∃ t, s.tx = some t ∧ t.generation = g ∧ t.previousGen = e ∧
    t.committed = true

variable {e : String}

theorem prior_of_coherent (h : Coherent s) (he : s.committed = e) : Prior e s := by
  refine ⟨he, fun t ht => ?_⟩
  obtain ⟨hne, hgen⟩ := h t ht
  refine ⟨hne, fun hc => ?_, fun hc => ?_⟩
  · rw [hc, if_pos rfl] at hgen
    exact hgen.symm.trans he
  · rw [hc, if_neg (by simp)] at hgen
    exact hgen.symm.trans he

variable {g pre : String}

theorem Opened.prior (hg : g ≠ "") (h : Opened g e pre s) : Prior e s := by
  obtain ⟨hs, t, ht, hgen, hprev, -, hc⟩ := h
  refine ⟨hs, fun t' ht' => ?_⟩
  obtain rfl := some.inj (ht.symm.trans ht')
  exact ⟨hgen ▸ hg, fun hc' => absurd (hc.symm.trans hc') (by simp), fun _ => hprev⟩

/-! ### What a status says -/

theorem status_of_none (h : s.tx = none) (c : Bool) :
    (inventoryStatus c s).committedPending = false := by
  unfold inventoryStatus
  rw [h]
  cases s.inventory <;> rfl

variable {t : Transaction}

theorem status_of_some (h : s.tx = some t) (c : Bool) :
    (inventoryStatus c s).committedPending = t.committed ∧
      (inventoryStatus c s).generation = t.generation ∧
      (inventoryStatus c s).previousGeneration = t.previousGen := by
  simp [inventoryStatus, h]

theorem generation_of_none (h : s.tx = none) (c : Bool)
    (hne : (inventoryStatus c s).generation ≠ "") :
    s.committed = "" ∧ s.inventory = some (inventoryStatus c s).generation ∨
      s.committed ≠ "" ∧ (inventoryStatus c s).generation = s.committed := by
  unfold inventoryStatus at hne ⊢
  rw [h] at hne ⊢
  cases hinv : s.inventory with
  | none => simp [hinv] at hne
  | some generation =>
    by_cases hs : s.committed = ""
    · simp [hs]
    · simp [hs]

/-! ### What one request does -/

theorem recover_first_cases {f : Fate} (h : (handleRecover false f s).2 = true) :
    (s.tx = none ∧ (handleRecover false f s).1 = s) ∨
      (∃ t, s.tx = some t ∧ t.committed = true ∧ (handleRecover false f s).1 = s) ∨
      ∃ t, s.tx = some t ∧ t.committed = false ∧
        (handleRecover false f s).1 = finishRecovered t := by
  revert h
  fun_cases handleRecover false f s with
  | case1 _ htx => exact fun _ => .inl ⟨htx, rfl⟩
  | case2 _ t htx hkeep => exact fun _ => .inr (.inl ⟨t, htx, by simpa using hkeep, rfl⟩)
  | case4 _ t htx hback => exact fun _ => .inr (.inr ⟨t, htx, by simpa using hback, rfl⟩)
  | _ => simp

theorem recover_abandon {f : Fate} (ht : s.tx = some t)
    (h : (handleRecover true f s).2 = true) : (handleRecover true f s).1 = finishRecovered t := by
  revert h
  fun_cases handleRecover true f s with
  | case1 _ htx => cases htx.symm.trans ht
  | case2 _ t' htx hkeep => simp at hkeep
  | case4 _ t' htx => exact fun _ => by rw [some.inj (htx.symm.trans ht)]
  | _ => simp

/-- The record of a node is kept, with or without its rollback material. -/
def Kept (s s' : LabState) : Prop :=
  s'.committed = s.committed ∧ s'.inventory = s.inventory ∧ (s'.tx = s.tx ∨ s'.tx = none)

theorem Kept.refl (s : LabState) : Kept s s := ⟨rfl, rfl, .inl rfl⟩

theorem Kept.trans {s' s'' : LabState} (h : Kept s s') (h' : Kept s' s'') : Kept s s'' := by
  refine ⟨h'.1.trans h.1, h'.2.1.trans h.2.1, ?_⟩
  rcases h'.2.2 with heq | hnone
  · rw [heq]
    exact h.2.2
  · exact .inr hnone

theorem finalize_kept (g : String) (f : Fate) (s : LabState) : Kept s (handleFinalize g f s).1 := by
  fun_cases handleFinalize with
  | case2 => exact ⟨rfl, rfl, .inr rfl⟩
  | _ => exact Kept.refl s

/-! ### The passes of a recovery -/

/-- The cluster after every node was asked to recover. -/
def firstPass (p : Pattern ι) (σ : ι → LabState) : ι → LabState :=
  fanOut (fun i => handleRecover false (p.recover i)) σ

/-- The cluster after the commits of a split were abandoned. -/
def secondPass (p : Pattern ι) (σ : ι → LabState) : ι → LabState :=
  fanOut (abandonSplit p (splitNodes p σ)) (firstPass p σ)

/-- The statuses a converged commit is looked for in. -/
def reobserved (p : Pattern ι) (σ : ι → LabState) : ι → Option RecoveryStatus :=
  observeNodes p.reobserve (recoverStatus p σ) (secondPass p σ)

theorem decided_eq_true {decision : (ι → RecoveryStatus) → Bool}
    {observed : ι → Option RecoveryStatus} (h : decided decision observed = true) :
    ∃ status, (∀ i, observed i = some (status i)) ∧ decision status = true := by
  unfold decided at h
  split_ifs at h with hall
  exact ⟨_, fun i => (some_get (hall i)).symm, h⟩

variable {i : ι} {status : RecoveryStatus} {τ : ι → LabState} {fate : ι → Fate}

omit [Fintype ι] in
theorem status_of_observed (h : observeNodes fate (recoverStatus p σ) τ i = some status) :
    ∃ c, status = inventoryStatus c (τ i) ∨ status = inventoryStatus c (firstPass p σ i) := by
  unfold observeNodes at h
  by_cases ha : (fate i).answered
  · rw [if_pos ha] at h
    exact ⟨_, .inl (some.inj h).symm⟩
  · rw [if_neg ha] at h
    simp only [recoverStatus] at h
    split_ifs at h
    exact ⟨_, .inr (some.inj h).symm⟩

omit [Fintype ι] in
theorem status_of_answer (h : observeNodes fate (fun _ => none) τ i = some status) :
    ∃ c, status = inventoryStatus c (τ i) := by
  unfold observeNodes at h
  split_ifs at h
  exact ⟨_, (some.inj h).symm⟩

theorem split_cases (h : splitNodes p σ i = true) :
    ∃ t k c, (firstPass p σ i).tx = some t ∧ t.committed = true ∧
      (∀ t', (firstPass p σ k).tx = some t' → t'.committed = false) ∧
      (inventoryStatus c (firstPass p σ k)).generation ≠ "" ∧
      t.previousGen = (inventoryStatus c (firstPass p σ k)).generation := by
  simp only [splitNodes, and_eq_true] at h
  obtain ⟨hsplit, hpending⟩ := h
  obtain ⟨status, hstatus, hdetect⟩ := decided_eq_true hsplit
  -- each status is one that its node could give
  have hread : ∀ j, ∃ c, status j = inventoryStatus c (firstPass p σ j) := by
    intro j
    obtain ⟨c, hc | hc⟩ := status_of_observed (hstatus j)
    · exact ⟨c, hc⟩
    · exact ⟨c, hc⟩
  rw [hstatus i, any_some] at hpending
  simp only [detectSplitCommit, decide_eq_true_eq] at hdetect
  obtain ⟨-, -, -, k, hk, hne, -, hprev⟩ := hdetect
  obtain ⟨c, hc⟩ := hread k
  obtain ⟨ci, hci⟩ := hread i
  cases htx : (firstPass p σ i).tx with
  | none => rw [hci, status_of_none htx] at hpending; nomatch hpending
  | some t =>
    have hfields := status_of_some htx ci
    refine ⟨t, k, c, rfl, ?_, fun t' ht' => ?_, hc ▸ hne, ?_⟩
    · rw [← hfields.1, ← hci]
      exact hpending
    · rw [← (status_of_some ht' c).1, ← hc]
      exact hk
    · rw [← hfields.2.2, ← hci, ← hc]
      exact hprev i hpending

theorem finish_cases (p : Pattern ι) (observed : ι → Option RecoveryStatus) (i : ι)
    (s : LabState) :
    (finishConverged p observed i s).1 = s ∨
      ∃ status : ι → RecoveryStatus, (∀ j, observed j = some (status j)) ∧
        (∀ j, (status i).generation = (status j).generation) ∧ (status i).generation ≠ "" ∧
        (finishConverged p observed i s).1 =
          (handleFinalize (status i).generation (p.finish i) s).1 := by
  fun_cases finishConverged with
  | case1 st hi hcond s' ok hfinalize =>
    obtain ⟨hconv, -⟩ := and_eq_true_iff.mp hcond
    obtain ⟨status, hstatus, hall⟩ := decided_eq_true hconv
    obtain rfl := some.inj (hi.symm.trans (hstatus i))
    have hwhole := of_decide_eq_true hall
    exact .inr ⟨status, hstatus, (hwhole i).2.2.2, (hwhole i).2.2.1, by rw [hfinalize]⟩
  | _ => exact .inl rfl

theorem recover_success (h : (recoverWithLease p σ).1 = true) (i : ι) :
    (handleRecover false (p.recover i) (σ i)).2 = true ∧
      (abandonSplit p (splitNodes p σ) i (firstPass p σ i)).2 = true ∧
      (recoverWithLease p σ).2 i =
        (finishConverged p (reobserved p σ) i (secondPass p σ i)).1 ∧
      ∀ t, ((recoverWithLease p σ).2 i).tx = some t → t.committed = false := by
  revert h
  fun_cases recoverWithLease p σ with
  | case1 _ _ _ _ hpass =>
    intro h
    obtain ⟨hanswered, habandon⟩ := and_eq_true_iff.mp hpass
    refine ⟨(of_decide_eq_true hanswered i).1, of_decide_eq_true habandon i, rfl, ?_⟩
    intro t ht
    obtain ⟨hdone, -⟩ := and_eq_true_iff.mp h
    obtain ⟨-, hfinal⟩ := and_eq_true_iff.mp hdone
    obtain ⟨status, hstatus, hsettled⟩ := decided_eq_true hfinal
    obtain ⟨c, hc⟩ := status_of_answer (hstatus i)
    have hpending := (of_decide_eq_true hsettled i).2.1
    rw [hc] at hpending
    exact (status_of_some ht c).1.symm.trans hpending
  | case2 => nofun

theorem recover_kept (p : Pattern ι) (σ : ι → LabState) (i : ι) :
    Kept (secondPass p σ i) ((recoverWithLease p σ).2 i) := by
  fun_cases recoverWithLease p σ with
  | case1 =>
    change Kept _ (finishConverged p (reobserved p σ) i (secondPass p σ i)).1
    rcases finish_cases p (reobserved p σ) i (secondPass p σ i) with hkeep | ⟨_, -, -, -, hfin⟩
    · rw [hkeep]
      exact Kept.refl _
    · rw [hfin]
      exact finalize_kept _ _ _
  | case2 => exact Kept.refl _

/-! ### Where a recovery leads -/

/-- Recovery keeps a cluster that has not committed at the generation it
    started from. -/
theorem recover_of_prior (hprior : ∀ i, Prior e (σ i)) (h : (recoverWithLease p σ).1 = true)
    (i : ι) : ((recoverWithLease p σ).2 i).committed = e := by
  -- A commit still in the journal after the first pass is one of `e`.
  have hfirst : ∀ j, (firstPass p σ j).committed = e ∧
      ∀ t, (firstPass p σ j).tx = some t → t.committed = true ∧ e ≠ "" := by
    intro j
    obtain ⟨hcommitted, htx⟩ := hprior j
    rcases recover_first_cases (recover_success h j).1 with
      ⟨hnone, heq⟩ | ⟨t, ht, hc, heq⟩ | ⟨t, ht, hc, heq⟩
    · rw [firstPass, fanOut, heq]
      exact ⟨hcommitted, fun t ht => nomatch hnone.symm.trans ht⟩
    · rw [firstPass, fanOut, heq]
      refine ⟨hcommitted, fun t' ht' => ?_⟩
      obtain rfl := some.inj (ht.symm.trans ht')
      exact ⟨hc, (htx t ht).2.1 hc ▸ (htx t ht).1⟩
    · rw [firstPass, fanOut, heq]
      exact ⟨(htx t ht).2.2 hc, fun t' ht' => absurd ht' (by simp [finishRecovered])⟩
  have hsecond : (secondPass p σ i).committed = e := by
    have habandon := (recover_success h i).2.1
    unfold secondPass fanOut
    unfold abandonSplit at habandon ⊢
    by_cases hs : splitNodes p σ i = true
    · obtain ⟨t, k, c, ht, hc, hk, hne, hprev⟩ := split_cases hs
      simp only [hs, if_true, and_eq_true] at habandon ⊢
      rw [recover_abandon ht habandon.1]
      -- The node the split is decided by holds no transaction at all.
      have hknone : (firstPass p σ k).tx = none := by
        cases hcase : (firstPass p σ k).tx with
        | none => rfl
        | some t' => exact absurd ((hk t' hcase).symm.trans ((hfirst k).2 t' hcase).1) (by simp)
      rcases generation_of_none hknone c hne with ⟨hempty, -⟩ | ⟨-, hgen⟩
      · exact absurd ((hfirst k).1.symm.trans hempty) ((hfirst i).2 t ht).2
      · exact hprev.trans (hgen.trans (hfirst k).1)
    · simp only [hs, if_false, Bool.false_eq_true]
      exact (hfirst i).1
  rw [(recover_kept p σ i).1, hsecond]

/-- Without transactions a recovery keeps every record. -/
theorem recover_of_closed (hnone : ∀ i, (σ i).tx = none)
    (i : ι) : Kept (σ i) ((recoverWithLease p σ).2 i) := by
  have hfirst : ∀ j, firstPass p σ j = σ j := by
    intro j
    change (handleRecover false (p.recover j) (σ j)).1 = σ j
    unfold handleRecover
    rw [hnone j]
    split_ifs <;> rfl
  have hsecond : secondPass p σ i = σ i := by
    unfold secondPass fanOut abandonSplit
    by_cases hs : splitNodes p σ i = true
    · obtain ⟨t, _, _, ht, -⟩ := split_cases hs
      rw [hfirst i, hnone i] at ht
      nomatch ht
    · rw [if_neg hs, hfirst i]
  exact hsecond ▸ recover_kept p σ i

theorem secondPass_of_not_split
    (h : splitNodes p σ i ≠ true) : secondPass p σ i = firstPass p σ i := by
  unfold secondPass fanOut abandonSplit
  rw [if_neg h]

section

variable (h : (recoverWithLease p σ).1 = true)

include h

theorem Opened.firstPass_eq (ho : Opened g e pre (σ i)) :
    firstPass p σ i = { committed := e, inventory := some pre, tx := none } := by
  obtain ⟨-, t, ht, -, hprev, hpre, hc⟩ := ho
  rcases recover_first_cases (recover_success h i).1 with
    ⟨hnone, -⟩ | ⟨t', ht', hc', -⟩ | ⟨t', ht', -, heq⟩
  · nomatch hnone.symm.trans ht
  · obtain rfl := some.inj (ht.symm.trans ht')
    nomatch hc.symm.trans hc'
  · obtain rfl := some.inj (ht.symm.trans ht')
    rw [firstPass, fanOut, heq, finishRecovered, hprev, hpre]

theorem Taken.firstPass_eq (ht : Taken g e (σ i)) : firstPass p σ i = σ i := by
  obtain ⟨-, t, ht, -, -, hc⟩ := ht
  rcases recover_first_cases (recover_success h i).1 with
    ⟨-, heq⟩ | ⟨-, -, -, heq⟩ | ⟨t', ht', hc', -⟩
  · exact heq
  · exact heq
  · obtain rfl := some.inj (ht.symm.trans ht')
    nomatch hc.symm.trans hc'

theorem Opened.secondPass_eq (ho : Opened g e pre (σ i)) :
    secondPass p σ i = { committed := e, inventory := some pre, tx := none } := by
  have hfirst := ho.firstPass_eq h
  have hsplit : splitNodes p σ i ≠ true := by
    intro hs
    obtain ⟨t, _, _, ht, -⟩ := split_cases hs
    rw [hfirst] at ht
    nomatch ht
  rw [secondPass_of_not_split hsplit, hfirst]

theorem Taken.abandoned (ht : Taken g e (σ i)) (hs : splitNodes p σ i = true) :
    (secondPass p σ i).committed = e ∧ e ≠ "" ∧ ∃ k, ¬ Taken g e (σ k) := by
  have hfirst := ht.firstPass_eq h
  obtain ⟨-, t, htx, -, hprev, -⟩ := ht
  obtain ⟨t', k, c, ht', -, hk, hne, hgen⟩ := split_cases hs
  obtain rfl := some.inj ((hfirst ▸ ht' : (σ i).tx = some t').symm.trans htx)
  have habandon := (recover_success h i).2.1
  refine ⟨?_, ?_, k, fun htk => ?_⟩
  · unfold secondPass fanOut
    unfold abandonSplit at habandon ⊢
    simp only [hs, if_true, and_eq_true] at habandon ⊢
    rw [recover_abandon ht' habandon.1]
    exact hprev
  · rw [← hprev, hgen]
    exact hne
  · have hfirstk := htk.firstPass_eq h
    obtain ⟨-, tk, htxk, -, -, hck⟩ := htk
    exact absurd ((hk tk (hfirstk ▸ htxk)).symm.trans hck) (by simp)

theorem Taken.finalized {k : ι} (ht : Taken g e (σ i)) (hs : splitNodes p σ i ≠ true)
    (hk : Opened g e pre (σ k)) : (if e = "" then pre else e) = g := by
  have hfirst := ht.firstPass_eq h
  have hsecond := (secondPass_of_not_split hs).trans hfirst
  obtain ⟨-, -, hend, htx⟩ := recover_success h i
  obtain ⟨-, t, ht, hgen, -, hc⟩ := ht
  rcases finish_cases p (reobserved p σ) i (secondPass p σ i) with
    hkeep | ⟨status, hstatus, hsame, -, -⟩
  · -- The recovery would have ended with the commit still pending.
    rw [hend, hkeep, hsecond] at htx
    nomatch (htx t ht).symm.trans hc
  · have hi : (status i).generation = g := by
      obtain ⟨c, hread | hread⟩ := status_of_observed (hstatus i)
      · rw [hread, hsecond, (status_of_some ht c).2.1, hgen]
      · rw [hread, hfirst, (status_of_some ht c).2.1, hgen]
    have hkgen : (status k).generation = if e = "" then pre else e := by
      obtain ⟨c, hread | hread⟩ := status_of_observed (hstatus k)
      · rw [hread, hk.secondPass_eq h]
        rfl
      · rw [hread, hk.firstPass_eq h]
        rfl
    rw [← hkgen, ← hsame k, hi]

end

/-- With some commits taken it goes back unless all converge. -/
theorem recover_of_commit {pre : ι → String} {took : ι → Prop}
    (hopen : ∀ i, ¬ took i → Opened g e (pre i) (σ i)) (htake : ∀ i, took i → Taken g e (σ i))
    (hsome : ∃ i, took i) (h : (recoverWithLease p σ).1 = true) :
    (∀ i, ((recoverWithLease p σ).2 i).committed = e) ↔
      g = e ∨ ∃ i, ¬ took i ∧ (e ≠ "" ∨ pre i ≠ g) := by
  simp only [fun i => (recover_kept p σ i).1]
  constructor
  · intro hall
    obtain ⟨i, hi⟩ := hsome
    by_cases hs : splitNodes p σ i = true
    · -- an abandoned commit was split from a node that did not take it
      obtain ⟨-, hne, k, hk⟩ := (htake i hi).abandoned h hs
      exact .inr ⟨k, fun hk' => hk (htake k hk'), .inl hne⟩
    · left
      rw [← hall i, secondPass_of_not_split hs, (htake i hi).firstPass_eq h]
      exact (htake i hi).1.symm
  · intro hcond i
    by_cases hi : took i
    · by_cases hs : splitNodes p σ i = true
      · exact ((htake i hi).abandoned h hs).1
      · rw [secondPass_of_not_split hs, (htake i hi).firstPass_eq h, (htake i hi).1]
        rcases hcond with heq | ⟨k, hk, hne⟩
        · exact heq
        · have hgen := (htake i hi).finalized h hs (hopen k hk)
          -- without a generation before, the others are compared by the inventory
          by_cases he : e = ""
          · rw [if_pos he] at hgen
            exact absurd hgen (hne.resolve_left (fun hne => hne he))
          · rw [if_neg he] at hgen
            exact hgen.symm
    · rw [(hopen i hi).secondPass_eq h]

end Client

end Twinet
