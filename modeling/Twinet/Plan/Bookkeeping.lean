import Twinet.Plan.Execute

/-!
# The Scheduler's Bookkeeping

What holds between any two actions of the executor. A step is ready or in flight
once at most, and only with everything it needs settled; the counts of what a
step still waits for are right; and as long as the scheduler is in its loop, a
step that waits for nothing more is settled, ready or in flight.

## Main definitions

* `Kept`: The bookkeeping is right.
* `Move`: What one accepted action does.
* `Runs`: An execution as far as it has come.

## Theorems

* `Plan.mem_settle_ready`: What a result makes ready.
* `Plan.Kept.settle`: Settling a step keeps the bookkeeping right.
* `Plan.Runs.kept`: It is right after every action.
-/

namespace Twinet

namespace Plan

open List Function

variable {ε : Type} {p : Plan} {c : Config} {e e' : Exec ε} {r : Result ε} {s : Step}

/-! ### Counting down -/

variable {id : String}

theorem mem_dependents : s ∈ dependents p id ↔ s ∈ p.steps ∧ id ∈ s.needs := by
  simp only [dependents, mem_flatMap, mem_map, mem_filter, decide_eq_true_eq]
  constructor
  · rintro ⟨t, ht, n, ⟨hn, rfl⟩, rfl⟩
    exact ⟨ht, hn⟩
  · rintro ⟨hs, hid⟩
    exact ⟨s, hs, id, ⟨hid, rfl⟩, rfl⟩

theorem count_dependents (hs : s ∈ p.steps) (id : String) :
    (dependents p id).countP (fun d => d.id = s.id) = s.needs.countP (· = id) := by
  obtain ⟨before, after, hsplit⟩ := append_of_mem hs
  have hnodup := p.distinct
  rw [hsplit, map_append, map_cons, nodup_middle, nodup_cons, mem_append, not_or] at hnodup
  -- nothing else goes by the name of the step
  have hother : ∀ l : List Step, s.id ∉ l.map Step.id →
      (l.flatMap fun t => (t.needs.filter (· = id)).map fun _ => t).countP
        (fun d => d.id = s.id) = 0 := by
    intro l hl
    simp only [countP_eq_zero, mem_flatMap, mem_map, decide_eq_true_eq]
    rintro d ⟨t, ht, n, -, rfl⟩ hid
    exact hl (hid ▸ mem_map_of_mem ht)
  rw [dependents, hsplit, flatMap_append, flatMap_cons, countP_append, countP_append,
    hother before hnodup.1.1, hother after hnodup.1.2]
  simp [countP_eq_length_filter]

theorem release_remaining (deps : List Step) : ∀ (remaining : String → Int) (ready : List Step)
    (id : String), (release deps remaining ready).1 id =
      remaining id - (deps.countP fun d => d.id = id) := by
  induction deps with
  | nil => simp [release]
  | cons dep rest ih =>
    intro remaining ready id
    rw [release, ih, countP_cons]
    by_cases hid : dep.id = id
    · subst hid
      simp only [update_self, decide_true, if_true]
      omega
    · rw [update_of_ne (Ne.symm hid)]
      simp [hid]

theorem mem_release {deps : List Step} (hinj : ∀ a ∈ deps, ∀ b ∈ deps, a.id = b.id → a = b) :
    ∀ {remaining : String → Int} {ready : List Step} {s : Step},
      s ∈ (release deps remaining ready).2 ↔ s ∈ ready ∨ (s ∈ deps ∧ 0 < remaining s.id ∧
        (release deps remaining ready).1 s.id ≤ 0) := by
  induction deps with
  | nil => simp [release]
  | cons dep rest ih =>
    intro remaining ready s
    have hrest := fun a ha b hb =>
      hinj a (mem_cons_of_mem _ ha) b (mem_cons_of_mem _ hb)
    rw [release, ih hrest, release_remaining]
    by_cases heq : s = dep
    · subst heq
      -- with more to count down, the step is named again in the rest
      have hagain : 0 < rest.countP (fun d => d.id = s.id) → s ∈ rest := by
        intro hpos
        obtain ⟨d, hd, hid⟩ := countP_pos_iff.mp hpos
        rw [← hinj d (mem_cons_of_mem _ hd) s mem_cons_self (of_decide_eq_true hid)]
        exact hd
      rw [update_self]
      split_ifs with hleft
      · simp only [mem_append, mem_cons, true_or, or_true, true_and, true_iff]
        right
        omega
      · refine or_congr_right ⟨fun h => ⟨mem_cons_self, by omega, h.2.2⟩, fun h => ?_⟩
        exact ⟨hagain (by omega), by omega, h.2.2⟩
    · have hready : s ∈ (if remaining dep.id - 1 = 0 then ready ++ [dep] else ready) ↔
          s ∈ ready := by
        split_ifs <;> simp [heq]
      rw [hready, mem_cons, or_iff_right heq]
      refine or_congr_right (and_congr_right fun hmem => ?_)
      have hid : s.id ≠ dep.id := fun h =>
        heq (hinj s (mem_cons_of_mem _ hmem) dep mem_cons_self h)
      rw [update_of_ne hid]

theorem release_nodup (deps : List Step) : ∀ {remaining : String → Int} {ready : List Step},
    ready.Nodup → (∀ s ∈ ready, remaining s.id ≤ 0) →
    (release deps remaining ready).2.Nodup := by
  induction deps with
  | nil => exact fun h _ => h
  | cons dep rest ih =>
    intro remaining ready hnodup hzero
    rw [release]
    have hless : ∀ s ∈ ready, update remaining dep.id (remaining dep.id - 1)
      s.id ≤ 0 := by
      intro s hs
      have := hzero s hs
      by_cases hid : s.id = dep.id
      · rw [hid, update_self]
        rw [hid] at this
        omega
      · rw [update_of_ne hid]
        exact this
    split_ifs with hleft
    · refine ih ?_ ?_
      · -- a step whose counter reaches zero now was not ready before
        rw [nodup_append_comm]
        refine nodup_cons.mpr ⟨fun hmem => ?_, hnodup⟩
        have := hzero dep hmem
        omega
      · intro s hs
        rcases mem_append.mp hs with hs | hs
        · exact hless s hs
        · rw [mem_singleton.mp hs, update_self]
          omega
    · exact ih hnodup hless

/-! ### The bookkeeping -/

/-- The steps the workers have, or have a result of on its way. -/
def inFlight (e : Exec ε) : List Step := e.taken ++ e.active ++ e.done.map Result.step

/-- The bookkeeping is right. -/
structure Kept (c : Config) (e : Exec ε) : Prop where
  ready : e.ready.Nodup
  flight : (inFlight e).Nodup
  apart : ∀ s ∈ e.ready, s ∉ inFlight e
  waiting : ∀ s, s ∈ e.ready ∨ s ∈ inFlight e →
    s ∈ c.plan.steps ∧ e.results s.id = none ∧ ∀ n ∈ s.needs, settled e n = true
  remaining : ∀ s ∈ c.plan.steps,
    e.remaining s.id = ((s.needs.filter fun n => !settled e n).length : Int)
  running : e.running = (inFlight e).length
  recorded : ∀ id r, e.results id = some r →
    r.step ∈ c.plan.steps ∧ r.step.id = id ∧ ∀ n ∈ r.step.needs, settled e n = true

variable {b : Bool}

theorem settled_settle :
    settled (settle c e r b) id = true ↔ id = r.step.id ∨ settled e id = true := by
  simp only [settled, settle]
  by_cases hid : id = r.step.id
  · simp [hid]
  · rw [update_of_ne hid]
    simp [hid]

theorem results_settle_self (e : Exec ε) (r : Result ε) (b : Bool) :
    (settle c e r b).results r.step.id = some r := update_self _ _ _

theorem results_settle_cases {r' : Result ε} (h : (settle c e r b).results id = some r') :
    (id = r.step.id ∧ r' = r) ∨ e.results id = some r' := by
  by_cases hid : id = r.step.id
  · subst hid
    rw [results_settle_self] at h
    cases h
    exact .inl ⟨rfl, rfl⟩
  · exact .inr ((update_of_ne hid _ _).symm.trans h)

theorem remaining_settle (h : Kept c e) (hnone : e.results r.step.id = none)
    (hs : s ∈ c.plan.steps) :
    (settle c e r b).remaining s.id =
      ((s.needs.filter fun n => !settled (settle c e r b) n).length : Int) := by
  -- what is not settled is the step that settles now, or it stays unsettled
  have hsplit : s.needs.countP (fun n => !settled e n) = s.needs.countP (· = r.step.id) +
      s.needs.countP fun n => !settled (settle c e r b) n := by
    rw [countP_eq_countP_filter_add _ _ (fun n => decide (n = r.step.id)), countP_filter,
      countP_filter]
    congr 1
    · refine countP_congr fun n _ => ?_
      by_cases hn : n = r.step.id
      · simp [hn, settled, hnone]
      · simp [hn]
    · refine countP_congr fun n _ => ?_
      simp only [Bool.and_eq_true, Bool.not_eq_true', ← Bool.not_eq_true, settled_settle,
        decide_eq_true_eq]
      tauto
  have hrem := release_remaining (dependents c.plan r.step.id) e.remaining e.ready s.id
  rw [h.remaining s hs, count_dependents hs] at hrem
  simp only [← countP_eq_length_filter] at hrem ⊢
  refine hrem.trans ?_
  omega

/-- What a result makes ready: the steps that waited for it and for nothing
    else. -/
theorem mem_settle_ready (h : Kept c e) (hnone : e.results r.step.id = none) :
    s ∈ (settle c e r b).ready ↔ s ∈ e.ready ∨ (s ∈ c.plan.steps ∧ r.step.id ∈ s.needs ∧
      ∀ n ∈ s.needs, settled (settle c e r b) n = true) := by
  have hinj : ∀ a ∈ dependents c.plan r.step.id, ∀ d ∈ dependents c.plan r.step.id,
      a.id = d.id → a = d := fun a ha d hd =>
    eq_of_id (mem_dependents.mp ha).1 (mem_dependents.mp hd).1
  refine (mem_insertionSort _).trans ((mem_release hinj).trans (or_congr_right ?_))
  rw [mem_dependents, and_assoc]
  refine and_congr_right fun hs => and_congr_right fun hneed => ?_
  have hpos : 0 < (s.needs.filter fun n => !settled e n).length :=
    length_pos_of_mem (mem_filter.mpr ⟨hneed, by simp [settled, hnone]⟩)
  have hall : (s.needs.filter fun n => !settled (settle c e r b) n).length = 0 ↔
      ∀ n ∈ s.needs, settled (settle c e r b) n = true := by simp [filter_eq_nil_iff]
  have hrem : (release (dependents c.plan r.step.id) e.remaining e.ready).1 s.id = _ :=
    remaining_settle (b := b) h hnone hs
  rw [← hall, h.remaining s hs, hrem]
  omega

/-- Settling a step keeps the bookkeeping right. -/
theorem Kept.settle (h : Kept c e) (hstep : r.step ∈ c.plan.steps)
    (hnone : e.results r.step.id = none) (hneeds : ∀ n ∈ r.step.needs, settled e n = true)
    (hready : r.step ∉ e.ready) (hflight : r.step ∉ inFlight e) : Kept c (Plan.settle c e r b) := by
  have hun : ¬ settled e r.step.id = true := by
    rw [settled, hnone]
    simp
  -- a step that becomes ready was waiting, so it is not ready or in flight yet
  have hnew : ∀ s : Step, r.step.id ∈ s.needs → s ∉ e.ready ∧ s ∉ inFlight e := by
    intro s hneed
    exact ⟨fun hs => hun ((h.waiting s (.inl hs)).2.2 _ hneed),
      fun hs => hun ((h.waiting s (.inr hs)).2.2 _ hneed)⟩
  refine ⟨?_, h.flight, ?_, ?_, fun s hs => remaining_settle h hnone hs, h.running, ?_⟩
  · refine (perm_insertionSort _ _).nodup_iff.mpr ?_
    refine release_nodup _ h.ready fun s hs => ?_
    obtain ⟨hs', -, hneeds⟩ := h.waiting s (.inl hs)
    rw [h.remaining s hs', filter_eq_nil_iff.mpr]
    · simp
    · intro n hn
      simp [hneeds n hn]
  · intro s hs
    rcases (mem_settle_ready h hnone).mp hs with hs | ⟨-, hneed, -⟩
    · exact h.apart s hs
    · exact (hnew s hneed).2
  · intro s hs
    have hold : s ∈ e.ready ∨ s ∈ inFlight e → s ∈ c.plan.steps ∧
        (Plan.settle c e r b).results s.id = none ∧
        ∀ n ∈ s.needs, settled (Plan.settle c e r b) n = true := by
      intro hs
      obtain ⟨hs', hres, hneeds⟩ := h.waiting s hs
      have hne : s.id ≠ r.step.id := by
        intro hid
        have heq := eq_of_id hs' hstep hid
        subst heq
        exact hs.elim hready hflight
      exact ⟨hs', (update_of_ne hne _ _).trans hres,
        fun n hn => settled_settle.mpr (.inr (hneeds n hn))⟩
    rcases hs with hs | hs
    · rcases (mem_settle_ready h hnone).mp hs with hs | ⟨hs', hneed, hall⟩
      · exact hold (.inl hs)
      · have hne : s.id ≠ r.step.id := by
          intro hid
          rw [eq_of_id hs' hstep hid] at hneed
          exact hun (hneeds _ hneed)
        refine ⟨hs', (update_of_ne hne _ _).trans ?_, hall⟩
        -- a settled step has all it needs, and this one had not
        cases hres : e.results s.id with
        | none => rfl
        | some r' =>
          obtain ⟨hr', hid, hsettled⟩ := h.recorded s.id r' hres
          rw [eq_of_id hr' hs' hid] at hsettled
          exact absurd (hsettled _ hneed) hun
    · exact hold (.inr hs)
  · intro id r' hr'
    rcases results_settle_cases hr' with ⟨rfl, rfl⟩ | hr'
    · exact ⟨hstep, rfl, fun n hn => settled_settle.mpr (.inr (hneeds n hn))⟩
    · obtain ⟨hr', hid', hall⟩ := h.recorded id r' hr'
      exact ⟨hr', hid', fun n hn => settled_settle.mpr (.inr (hall n hn))⟩

/-! ### One action at a time -/

theorem workers_pos (c : Config) : 0 < c.workers := by
  unfold Config.workers defaultWorkers
  by_cases hdefault : c.options.workers ≤ 0
  · rw [if_pos hdefault]
    dsimp only
    split_ifs <;> omega
  · rw [if_neg hdefault]
    omega

/-- There is nothing to skip. -/
def Clear (c : Config) (e : Exec ε) : Prop := ∀ s rest, e.ready = s :: rest → skip c e s = none

/-- The scheduler goes to another place in its loop and does nothing else. -/
inductive Turn (c : Config) (e : Exec ε) : Counter → Prop
  | resolve : e.counter = .head → pending c e ≠ [] → e.cancelled = false → Turn c e (.resolve false)
  | drain : e.counter = .head → pending c e = [] → Turn c e .drain
  | head : e.counter = .resolve true → Turn c e .head
  | offer : e.counter = .resolve false → Clear c e → e.ready ≠ [] → e.running < c.workers →
      Turn c e .offer
  | wait : e.counter = .resolve false → e.running ≠ 0 → (e.ready = [] ∨ c.workers ≤ e.running) →
      Turn c e .wait
  | returned : e.counter = .drain → e.running = 0 → Turn c e .returned

/-- The scheduler stops early without a result. -/
inductive Halts (c : Config) (e : Exec ε) : StopError ε → Prop
  | context : e.cancelled = true → (e.counter = .head ∨ e.counter = .offer ∨ e.counter = .wait) →
      Halts c e .context
  | deadlock : e.counter = .resolve false → e.running = 0 → e.ready = [] →
      Halts c e (.deadlock (pending c e))

/-- What one accepted action does. -/
inductive Move (c : Config) (e : Exec ε) : Act ε → Exec ε → Prop
  | cancel : e.cancelled = false → Move c e .cancel { e with cancelled := true }
  | late {s : Step} : s ∈ e.taken → (e.cancelled = true ∨ e.stop.isSome = true) →
      Move c e (.start s)
        { e with
          taken := e.taken.erase s
          done := e.done ++ [{ step := s, err := some .context, skipped := true }] }
  | start {s : Step} : s ∈ e.taken → e.cancelled = false → e.stop = none →
      Move c e (.start s)
        { e with
          taken := e.taken.erase s, active := e.active ++ [s]
          observed := e.observed ++ [.started s] }
  | finish {s : Step} (err : Option ε) : s ∈ e.active → Move c e (.finish s err) (finish e s err)
  | turn {k : Counter} : Turn c e k → Move c e .advance { e with counter := k }
  | halt {a : Act ε} {why : StopError ε} : Halts c e why → a = .advance ∨ a = .abandon →
      Move c e a (halt e why)
  | skip {b : Bool} {s : Step} {rest : List Step} {r : Result ε} {blocked : Bool} :
      e.counter = .resolve b → e.ready = s :: rest → skip c e s = some (r, blocked) →
      Move c e .advance
        { settle c { e with ready := rest } r blocked with counter := .resolve true }
  | hand {s : Step} {rest : List Step} : e.counter = .offer → e.ready = s :: rest →
      Move c e .advance
        { e with
          ready := rest, taken := e.taken ++ [s], running := e.running + 1, counter := .head }
  | receive {r : Result ε} {rest : List (Result ε)} : e.counter = .wait → e.done = r :: rest →
      (r.err = none ∨ r.step.optional = true ∨ c.options.continueOnError = true) →
      Move c e .advance
        { settle c { e with done := rest, running := e.running - 1 } r false with counter := .head }
  | fail {r : Result ε} {rest : List (Result ε)} {err : StepError ε} : e.counter = .wait →
      e.done = r :: rest → r.err = some err → r.step.optional = false →
      c.options.continueOnError = false →
      Move c e .advance (halt (settle c { e with done := rest, running := e.running - 1 } r false)
        (.failed r.step.describe err))
  | drop {r : Result ε} {rest : List (Result ε)} : e.counter = .drain → e.done = r :: rest →
      Move c e .advance { e with done := rest, running := e.running - 1, counter := .drain }

theorem move_dispatch (hcounter : e.counter = .resolve b)
    (hclear : Clear c e) : Move c e .advance (dispatch c e b) := by
  unfold dispatch
  cases b with
  | true => exact .turn (.head hcounter)
  | false =>
    rw [if_neg (by simp)]
    by_cases hoffer : e.ready ≠ [] ∧ e.running < c.workers
    · rw [if_pos hoffer]
      exact .turn (.offer hcounter hclear hoffer.1 hoffer.2)
    · rw [if_neg hoffer, await]
      by_cases hrun : e.running = 0
      · rw [if_pos hrun]
        have hready : e.ready = [] := by
          by_contra hne
          exact hoffer ⟨hne, hrun ▸ workers_pos c⟩
        exact .halt (.deadlock hcounter hrun hready) (.inl rfl)
      · rw [if_neg hrun]
        refine .turn (.wait hcounter hrun ?_)
        by_cases hready : e.ready = []
        · exact .inl hready
        · exact .inr (Nat.le_of_not_lt fun hlt => hoffer ⟨hready, hlt⟩)

theorem move_resolve (hcounter : e.counter = .resolve b) : Move c e .advance (resolve c e b) := by
  unfold resolve
  cases hready : e.ready with
  | nil => exact move_dispatch hcounter fun s rest h => by rw [hready] at h; cases h
  | cons s rest =>
    simp only
    cases hskip : skip c e s with
    | some out => exact .skip hcounter hready hskip
    | none =>
      refine move_dispatch hcounter fun t rest' h => ?_
      rw [hready] at h
      cases h
      exact hskip

variable {rest : List (Result ε)}

theorem move_receive (hcounter : e.counter = .wait) (hdone : e.done = r :: rest) :
    Move c e .advance (receive c e r rest) := by
  fun_cases receive c e r rest with
  | case1 e' err herr hstop =>
    simp only [Bool.and_eq_true, Bool.not_eq_true'] at hstop
    exact .fail hcounter hdone herr hstop.1 hstop.2
  | case2 e' err herr hstop =>
    refine .receive hcounter hdone (.inr ?_)
    cases hopt : r.step.optional
    · right
      simpa [hopt] using hstop
    · exact .inl rfl
  | case3 e' herr => exact .receive hcounter hdone (.inl herr)

theorem move_advance (hacc : canAdvance e = true) :
    Move c e .advance (advance c e) := by
  fun_cases advance c e with
  | case1 hcounter _ hcancel => exact .halt (.context hcancel (.inl hcounter)) (.inl rfl)
  | case2 hcounter hpending hcancel =>
    exact .turn (.resolve hcounter hpending (Bool.not_eq_true _ ▸ hcancel))
  | case3 hcounter hpending => exact .turn (.drain hcounter (not_not.mp hpending))
  | case4 b hcounter => exact move_resolve hcounter
  | case5 hcounter s rest hready => exact .hand hcounter hready
  | case7 hcounter r rest hdone => exact move_receive hcounter hdone
  | case9 hcounter hrun => exact .turn (.returned hcounter hrun)
  | case10 hcounter hrun =>
    cases hdone : e.done with
    | nil => simp [canAdvance, hcounter, hdone, hrun] at hacc
    | cons r rest => exact hcounter ▸ .drop hcounter hdone
  | case6 hcounter hnil | case8 hcounter hnil => simp [canAdvance, hcounter, hnil] at hacc
  | case11 hcounter => simp [canAdvance, hcounter] at hacc

variable {a : Act ε}

theorem move_of_accepts (hacc : (executor c).accepts e a = true) :
    Move c e a ((executor c).apply e a) := by
  cases a with
  | cancel =>
    have hnot : e.cancelled = false := by simpa [executor] using hacc
    exact .cancel hnot
  | start s =>
    have hs : s ∈ e.taken := of_decide_eq_true hacc
    simp only [executor, Plan.start]
    by_cases hlate : (e.cancelled || e.stop.isSome) = true
    · rw [if_pos hlate]
      exact .late hs (Bool.or_eq_true_iff.mp hlate)
    · rw [if_neg hlate]
      simp only [Bool.or_eq_true, not_or, Bool.not_eq_true, Option.isSome_eq_false_iff,
        Option.isNone_iff_eq_none] at hlate
      exact .start hs hlate.1 hlate.2
  | finish s err => exact .finish err (of_decide_eq_true hacc)
  | advance => exact move_advance hacc
  | abandon =>
    simp only [executor, Bool.and_eq_true, Bool.or_eq_true, decide_eq_true_eq] at hacc
    exact .halt (.context hacc.1 (.inr hacc.2)) (.inr rfl)

theorem perm_pass {xs ys : List Step} (hs : s ∈ xs) :
    (xs.erase s ++ (ys ++ [s])).Perm (xs ++ ys) := by
  have hfront : (xs.erase s ++ (ys ++ [s])).Perm ((s :: xs.erase s) ++ ys) := by
    rw [← append_assoc]
    exact perm_append_singleton _ _
  exact hfront.trans ((perm_cons_erase hs).symm.append_right _)

theorem inFlight_late (hs : s ∈ e.taken) (err : Option (StepError ε)) :
    (inFlight { e with
      taken := e.taken.erase s
      done := e.done ++ [{ step := s, err := err, skipped := true }] }).Perm (inFlight e) := by
  rw [inFlight, inFlight, map_append, append_assoc, append_assoc,
    ← append_assoc e.active]
  exact perm_pass hs

theorem inFlight_start (hs : s ∈ e.taken) (observed : List (Event ε)) :
    (inFlight { e with
      taken := e.taken.erase s, active := e.active ++ [s], observed := observed }).Perm
      (inFlight e) := (perm_pass hs).append_right _

theorem inFlight_finish (hs : s ∈ e.active) (err : Option ε) :
    (inFlight (finish e s err)).Perm (inFlight e) := by
  rw [inFlight, inFlight, append_assoc, append_assoc]
  refine Perm.append_left _ ?_
  rw [finish, map_append]
  exact perm_pass hs

theorem inFlight_hand (e : Exec ε) (s : Step) (ready : List Step) (n : Nat) (k : Counter) :
    (inFlight { e with
      ready := ready, taken := e.taken ++ [s], running := n, counter := k }).Perm
      (s :: inFlight e) := by
  rw [inFlight, inFlight, append_assoc, append_assoc, append_assoc]
  exact perm_middle

theorem inFlight_pop {n : Nat} (hdone : e.done = r :: rest) :
    (inFlight e).Perm (r.step :: inFlight { e with done := rest, running := n }) := by
  rw [inFlight, hdone, map_cons]
  exact perm_middle

theorem Kept.congr (h : Kept c e) (hready : e'.ready = e.ready)
    (hflight : (inFlight e').Perm (inFlight e)) (hresults : e'.results = e.results)
    (hremaining : e'.remaining = e.remaining) (hrunning : e'.running = e.running) :
    Kept c e' := by
  have hsettled : ∀ n, settled e' n = settled e n := fun n => by rw [settled, hresults, settled]
  refine ⟨hready ▸ h.ready, hflight.nodup_iff.mpr h.flight, ?_, ?_, ?_, ?_, ?_⟩
  · intro s hs hmem
    exact h.apart s (hready ▸ hs) (hflight.mem_iff.mp hmem)
  · intro s hs
    rw [hready, hflight.mem_iff] at hs
    simp only [hresults, hsettled]
    exact h.waiting s hs
  · intro s hs
    simp only [hremaining, hsettled]
    exact h.remaining s hs
  · rw [hrunning, h.running, hflight.length_eq]
  · intro id r hr
    simp only [hsettled]
    exact h.recorded id r (hresults ▸ hr)

theorem skip_step (h : skip c e s = some (r, b)) :
    r.step = s ∧ r.skipped = true ∧ (c.options.dryRun = true ∨ b = true ∧
      ((s.scope ≠ "" ∧ e.failedScopes s.scope = true) ∨
        ∃ n ∈ s.needs, e.failedSteps n = true)) := by
  unfold skip at h
  split_ifs at h with hdry hscope
  · cases h
    exact ⟨rfl, rfl, .inl hdry⟩
  · cases h
    exact ⟨rfl, rfl, .inr ⟨rfl, .inl hscope⟩⟩
  · obtain ⟨need, hneed, hr⟩ := Option.map_eq_some_iff.mp h
    cases hr
    exact ⟨rfl, rfl, .inr ⟨rfl, .inr ⟨need, mem_of_find?_eq_some hneed, find?_some hneed⟩⟩⟩

theorem Kept.next (h : Kept c e) {rest : List Step}
    (hready : e.ready = s :: rest) : Kept c { e with ready := rest } ∧ s ∉ rest := by
  have hnodup : s ∉ rest ∧ rest.Nodup := nodup_cons.mp (hready ▸ h.ready)
  have hmem : ∀ t ∈ rest, t ∈ e.ready := fun t ht => hready ▸ mem_cons_of_mem _ ht
  exact ⟨{ h with ready := hnodup.2, apart := fun t ht => h.apart t (hmem t ht)
                  waiting := fun t ht => h.waiting t (ht.imp_left (hmem t)) }, hnodup.1⟩

theorem Kept.pop (h : Kept c e) (hdone : e.done = r :: rest) :
    Kept c { e with done := rest, running := e.running - 1 } ∧
      r.step ∉ inFlight { e with done := rest, running := e.running - 1 } ∧
      r.step ∈ inFlight e := by
  have hperm := inFlight_pop (n := e.running - 1) hdone
  have hnodup := nodup_cons.mp (hperm.nodup_iff.mp h.flight)
  have hmem : ∀ t ∈ inFlight { e with done := rest, running := e.running - 1 }, t ∈ inFlight e :=
    fun t ht => hperm.mem_iff.mpr (mem_cons_of_mem _ ht)
  refine ⟨⟨h.ready, hnodup.2, fun t ht hf => h.apart t ht (hmem t hf),
    fun t ht => h.waiting t (ht.imp_right (hmem t)), h.remaining, ?_, h.recorded⟩, hnodup.1,
    hperm.mem_iff.mpr mem_cons_self⟩
  have hlen := hperm.length_eq
  rw [length_cons, ← h.running] at hlen
  exact Nat.sub_eq_of_eq_add hlen

theorem Kept.received (h : Kept c e) (hdone : e.done = r :: rest) :
    Kept c (Plan.settle c { e with done := rest, running := e.running - 1 } r false) := by
  obtain ⟨hkept, hout, hin⟩ := h.pop hdone
  obtain ⟨hstep, hnone, hneeds⟩ := h.waiting r.step (.inr hin)
  exact hkept.settle hstep hnone hneeds (fun hready => h.apart _ hready hin) hout

theorem Kept.skipped (h : Kept c e) {rest : List Step} (hready : e.ready = s :: rest)
    (hskip : skip c e s = some (r, b)) : Kept c (Plan.settle c { e with ready := rest } r b) := by
  obtain ⟨hkept, hout⟩ := h.next hready
  obtain ⟨rfl, -, -⟩ := skip_step hskip
  have hs : r.step ∈ e.ready := hready ▸ mem_cons_self
  obtain ⟨hstep, hnone, hneeds⟩ := h.waiting r.step (.inl hs)
  exact hkept.settle hstep hnone hneeds hout (h.apart _ hs)

theorem Kept.move (h : Kept c e) (hmove : Move c e a e') : Kept c e' := by
  cases hmove with
  | cancel hnot | turn hturn | halt hwhy ha => exact { h with }
  | late hs hwhy => exact h.congr rfl (inFlight_late hs _) rfl rfl rfl
  | start hs hcancel hstop => exact h.congr rfl (inFlight_start hs _) rfl rfl rfl
  | finish err hs => exact h.congr rfl (inFlight_finish hs err) rfl rfl rfl
  | skip hcounter hready hskip =>
    exact { h.skipped hready hskip with }
  | @hand s rest hcounter hready =>
    -- the step leaves the queue and is in flight
    obtain ⟨hkept, hout⟩ := h.next hready
    have hs : s ∈ e.ready := hready ▸ mem_cons_self
    have hperm := inFlight_hand e s rest (e.running + 1) .head
    refine ⟨hkept.ready, hperm.nodup_iff.mpr (nodup_cons.mpr ⟨h.apart s hs, h.flight⟩),
      ?_, ?_, h.remaining, ?_, h.recorded⟩
    · intro t ht hmem
      rcases mem_cons.mp (hperm.mem_iff.mp hmem) with rfl | hmem
      · exact hout ht
      · exact hkept.apart t ht hmem
    · intro t ht
      rcases ht with ht | ht
      · exact hkept.waiting t (.inl ht)
      · rcases mem_cons.mp (hperm.mem_iff.mp ht) with rfl | ht
        · exact h.waiting t (.inl hs)
        · exact h.waiting t (.inr ht)
    · refine Eq.trans ?_ hperm.length_eq.symm
      rw [length_cons, ← h.running]
  | receive hcounter hdone hgo | fail hcounter hdone herr hopt hgo =>
    exact { h.received hdone with }
  | drop hcounter hdone => exact { (h.pop hdone).1 with }

theorem kept_initial (c : Config) : Kept c (initial c : Exec ε) := by
  refine ⟨nodup_steps.filter _, nodup_nil, fun _ _ => not_mem_nil, ?_, ?_, rfl, ?_⟩
  · rintro s (hs | hs)
    · obtain ⟨hs, hneeds⟩ := mem_filter.mp hs
      have hnil : s.needs = [] := length_eq_zero_iff.mp (of_decide_eq_true hneeds)
      exact ⟨hs, rfl, by simp [hnil]⟩
    · cases hs
  · intro s hs
    have hall : (s.needs.filter fun n => !settled (initial c : Exec ε) n) = s.needs :=
      filter_eq_self.mpr fun _ _ => rfl
    rw [hall, ← needs_id hs]
    rfl
  · rintro id r ⟨⟩

/-! ### Executions -/

/-- An execution of an accepted plan, as far as it has come. -/
def Runs (c : Config) (acts : List (Act ε)) (e : Exec ε) : Prop :=
  c.plan.validate = .ok () ∧ (executor c).run (initial c) acts = some e

variable {acts : List (Act ε)}

theorem Runs.invariant {P : Act ε → Prop} {I : Exec ε → Prop} (hinit : I (initial c))
    (hmove : ∀ e e' a, P a → I e → Move c e a e' → I e') (hP : ∀ a ∈ acts, P a)
    (h : Runs c acts e) : I e :=
  Guarded.run_invariant (fun e a ha hI hacc => hmove e _ a ha hI (move_of_accepts hacc)) hP hinit
    h.2

/-- It is right after every action. -/
theorem Runs.kept (h : Runs c acts e) : Kept c e :=
  h.invariant (kept_initial c) (fun _ _ _ _ hI hmove => hI.move hmove) fun _ _ => trivial

end Plan

end Twinet
