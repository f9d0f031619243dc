import Twinet.Plan.Bookkeeping

/-!
# What Has to Be Over Before a Step Starts

The observer is told of every step that starts and of every one that is over.
In what it is told, a step starts once at most, and after everything it needs is
over with no failure that counts.

A result that says its worker was cancelled is no failure, and the steps that
waited for it do become ready. None of them is handed out: the scheduler takes
such a result only when the caller has cancelled, and looks for that first.

## Main definitions

* `Lawful`: Every step starts once, and cleared.
* `Ordered`: What is known between any two actions.

## Theorems

* `Plan.Runs.ordered`: What the observer is told is lawful.
* `Plan.start_order`: No step starts early or twice.
-/

namespace Twinet

namespace Plan

open List Option

variable {ε : Type} {c : Config} {e e' : Exec ε} {r : Result ε} {s : Step}

/-- Everything a step needs is over, with no failure that counts. -/
def Cleared (c : Config) (observed : List (Event ε)) (s : Step) : Prop :=
  ∀ n ∈ s.needs, ∃ r, .finished r ∈ observed ∧ r.step ∈ c.plan.steps ∧ r.step.id = n ∧
    (r.err = none ∨ r.step.optional = true)

/-- Every step starts once, and cleared. -/
def Lawful (c : Config) (observed : List (Event ε)) : Prop :=
  ∀ before s after, observed = before ++ .started s :: after →
    Cleared c before s ∧ .started s ∉ before

theorem Cleared.mono {observed more : List (Event ε)} (h : Cleared c observed s) :
    Cleared c (observed ++ more) s := by
  intro n hn
  obtain ⟨r, hr, hrest⟩ := h n hn
  exact ⟨r, mem_append_left _ hr, hrest⟩

theorem Lawful.concat {observed : List (Event ε)} {ev : Event ε} (h : Lawful c observed)
    (hev : ∀ s, ev = .started s → Cleared c observed s ∧ .started s ∉ observed) :
    Lawful c (observed ++ [ev]) := by
  intro before s after heq
  rcases eq_nil_or_concat after with rfl | ⟨init, last, rfl⟩
  · obtain ⟨rfl, hlast⟩ := append_inj' heq rfl
    exact hev s (singleton_inj.mp hlast)
  · rw [concat_eq_append, ← cons_append, ← append_assoc] at heq
    obtain ⟨rfl, -⟩ := append_inj' heq rfl
    exact h before s init rfl

/-- What is known of starts, results and skips between any two actions. -/
structure Ordered (c : Config) (e : Exec ε) : Prop where
  taken : ∀ s ∈ e.taken, Cleared c e.observed s
  fresh : ∀ s, s ∈ e.ready ∨ s ∈ e.taken → .started s ∉ e.observed
  begun : ∀ s, .started s ∈ e.observed → s ∈ c.plan.steps ∧ ∀ n ∈ s.needs, settled e n = true
  lawful : Lawful c e.observed
  ran : ∀ id r, e.results id = some r → r.skipped = false → .finished r ∈ e.observed ∧
    (e.failedSteps id = false → r.err = none ∨ r.step.optional = true)
  skipped : ∀ id r, e.results id = some r → r.skipped = true → e.failedSteps id = true ∨
    c.options.dryRun = true ∨ (e.cancelled = true ∧ e.counter = .head) ∨ e.counter = .drain ∨
    e.counter = .returned
  back : ∀ r ∈ e.done, (r.skipped = false → .finished r ∈ e.observed) ∧
    (r.skipped = true → e.cancelled = true ∨ e.stop.isSome = true)
  stopped : e.stop.isSome = true → e.counter = .drain ∨ e.counter = .returned
  offer : e.counter = .offer → Clear c e

variable {id : String}

theorem failedSteps_settle {b : Bool} :
    (settle c e r b).failedSteps id = true ↔
      (id = r.step.id ∧ (b = true ∨ r.failed = true)) ∨ e.failedSteps id = true := by
  simp only [settle]
  by_cases hfail : (b || r.failed) = true
  · rw [if_pos hfail]
    rw [Bool.or_eq_true] at hfail
    by_cases hid : id = r.step.id
    · simp [hid, hfail]
    · rw [Function.update_of_ne hid]
      simp [hid]
  · rw [if_neg hfail]
    simp only [Bool.or_eq_true] at hfail
    simp [hfail]

theorem Ordered.fewer (h : Ordered c e) {ready : List Step}
    {done : List (Result ε)} {n : Nat} (hready : ready ⊆ e.ready) (hdone : done ⊆ e.done)
    (hoffer : e.counter ≠ .offer) :
    Ordered c { e with ready := ready, done := done, running := n } :=
  { h with
    fresh := fun s hs => h.fresh s (hs.imp_left (@hready s))
    back := fun r hr => h.back r (hdone hr)
    offer := fun hcounter => absurd hcounter hoffer }

theorem Ordered.settle (h : Ordered c e) (hkept : Kept c e) {b : Bool}
    {k : Counter} {st : Option (StopError ε)} (hnone : e.results r.step.id = none)
    (hran : r.skipped = false → .finished r ∈ e.observed)
    (hskip : r.skipped = true → b = true ∨ c.options.dryRun = true ∨
      (e.cancelled = true ∧ k = .head) ∨ k = .drain)
    (hcounter : e.counter ≠ .head ∧ e.counter ≠ .drain ∧ e.counter ≠ .returned)
    (hk : k ≠ .offer) (hstop : st.isSome = true → k = .drain) :
    Ordered c { Plan.settle c e r b with counter := k, stop := st } := by
  have hun : ¬ settled e r.step.id = true := by
    rw [settled, hnone]
    simp
  have hmono : ∀ id, e.failedSteps id = true → (Plan.settle c e r b).failedSteps id = true :=
    fun id hid => failedSteps_settle.mpr (.inr hid)
  have hself : b = true ∨ r.failed = true → (Plan.settle c e r b).failedSteps r.step.id = true :=
    fun hwhy => failedSteps_settle.mpr (.inl ⟨rfl, hwhy⟩)
  have hset : ∀ n, settled e n = true → settled (Plan.settle c e r b) n = true :=
    fun n hn => settled_settle.mpr (.inr hn)
  refine ⟨h.taken, ?_, ?_, h.lawful, ?_, ?_, ?_, fun hs => .inl (hstop hs),
    fun hoffer => absurd hoffer hk⟩
  · rintro s (hs | hs) hmem
    · rcases (mem_settle_ready (b := b) hkept hnone).mp hs with hs | ⟨-, hneed, -⟩
      · exact h.fresh s (.inl hs) hmem
      · -- a step that has started needs nothing that is not settled
        exact hun ((h.begun s hmem).2 _ hneed)
    · exact h.fresh s (.inr hs) hmem
  · intro s hs
    obtain ⟨hstep, hneeds⟩ := h.begun s hs
    exact ⟨hstep, fun n hn => hset n (hneeds n hn)⟩
  · intro id r' hr' hrun
    rcases results_settle_cases (c := c) (b := b) hr' with ⟨rfl, rfl⟩ | hr'
    · refine ⟨hran hrun, fun hfail => ?_⟩
      have hnot : ¬ r'.failed = true := fun hf =>
        absurd (hfail.symm.trans (hself (.inr hf))) (by simp)
      cases herr : r'.err with
      | none => exact .inl rfl
      | some err =>
        right
        simpa [Result.failed, herr, hrun] using hnot
    · obtain ⟨hmem, hok⟩ := h.ran id r' hr' hrun
      refine ⟨hmem, fun hfail => hok ?_⟩
      exact Bool.not_eq_true _ ▸ fun hf => by cases hfail.symm.trans (hmono id hf)
  · intro id r' hr' hskipped
    rcases results_settle_cases (c := c) (b := b) hr' with ⟨rfl, rfl⟩ | hr'
    · rcases hskip hskipped with hb | hdry | hcancel | hdrain
      · exact .inl (hself (.inl hb))
      · exact .inr (.inl hdry)
      · exact .inr (.inr (.inl hcancel))
      · exact .inr (.inr (.inr (.inl hdrain)))
    · rcases h.skipped id r' hr' hskipped with hf | hdry | ⟨-, hhead⟩ | hdrain | hret
      · exact .inl (hmono id hf)
      · exact .inr (.inl hdry)
      · exact absurd hhead hcounter.1
      · exact absurd hdrain hcounter.2.1
      · exact absurd hret hcounter.2.2
  · intro r' hr'
    refine ⟨(h.back r' hr').1, fun hskipped => ?_⟩
    rcases (h.back r' hr').2 hskipped with hcancel | hst
    · exact .inl hcancel
    · exact absurd (h.stopped hst) (by simp [hcounter])

theorem Ordered.goto (h : Ordered c e) {k : Counter} {st : Option (StopError ε)}
    (hend : (e.cancelled = true ∧ e.counter = .head) ∨ e.counter = .drain ∨
      e.counter = .returned → k = .drain ∨ k = .returned)
    (hstop : st.isSome = true → k = .drain ∨ k = .returned)
    (hback : e.stop.isSome = true → st.isSome = true) (hoffer : k = .offer → Clear c e) :
    Ordered c { e with counter := k, stop := st } := by
  refine { h with skipped := ?_, back := ?_, stopped := hstop, offer := hoffer }
  · intro id r hr hskip
    rcases h.skipped id r hr hskip with hf | hdry | hrest
    · exact .inl hf
    · exact .inr (.inl hdry)
    · exact .inr (.inr (.inr (hend hrest)))
  · exact fun r hr => ⟨(h.back r hr).1, fun hskip => ((h.back r hr).2 hskip).imp_right hback⟩

theorem Ordered.cleared (h : Ordered c e) (hkept : Kept c e) {rest : List Step}
    (hcounter : e.counter = .offer) (hready : e.ready = s :: rest) :
    Cleared c e.observed s := by
  have hskip : skip c e s = none := h.offer hcounter s rest hready
  unfold skip at hskip
  split_ifs at hskip with hdry hscope
  have hnone : ∀ n ∈ s.needs, ¬ e.failedSteps n = true :=
    find?_eq_none.mp (map_eq_none_iff.mp hskip)
  intro n hn
  have hs : s ∈ e.ready := hready ▸ mem_cons_self
  have hsettled := (hkept.waiting s (.inl hs)).2.2 n hn
  obtain ⟨r, hr⟩ := isSome_iff_exists.mp hsettled
  obtain ⟨hstep, hid, -⟩ := hkept.recorded n r hr
  have hran : r.skipped = false := by
    rw [← Bool.not_eq_true]
    intro hskipped
    rcases h.skipped n r hr hskipped with hf | hf | ⟨-, hf⟩ | hf | hf
    · exact hnone n hn hf
    · exact hdry hf
    · rw [hcounter] at hf
      cases hf
    · rw [hcounter] at hf
      cases hf
    · rw [hcounter] at hf
      cases hf
  obtain ⟨hmem, hok⟩ := h.ran n r hr hran
  exact ⟨r, hmem, hstep, hid, hok (Bool.not_eq_true _ ▸ hnone n hn)⟩

theorem Ordered.received (h : Ordered c e) (hkept : Kept c e) {rest : List (Result ε)}
    {k : Counter} {st : Option (StopError ε)}
    (hcounter : e.counter = .wait) (hdone : e.done = r :: rest) (hk : k = .head ∨ k = .drain)
    (hst : st.isSome = true → k = .drain) :
    Ordered c { Plan.settle c { e with done := rest, running := e.running - 1 } r false with
      counter := k, stop := st } := by
  have hr : r ∈ e.done := hdone ▸ mem_cons_self
  have hnotStopped : ¬ e.stop.isSome = true := fun hs => by
    have := h.stopped hs
    simp [hcounter] at this
  have hfewer : Ordered c { e with done := rest, running := e.running - 1 } :=
    h.fewer (Subset.refl _) (by simp [hdone]) (by simp [hcounter])
  obtain ⟨hpop, -, hin⟩ := hkept.pop hdone
  refine hfewer.settle hpop (hkept.waiting _ (.inr hin)).2.1 (h.back r hr).1 ?_
    (by simp [hcounter]) ?_ hst
  · intro hskipped
    -- the worker was cancelled, and the scheduler is not the one who did it
    have hcancel := ((h.back r hr).2 hskipped).resolve_right hnotStopped
    rcases hk with hk | hk
    · exact .inr (.inr (.inl ⟨hcancel, hk⟩))
    · exact .inr (.inr (.inr hk))
  · rintro rfl
    simp at hk

theorem Ordered.observe (h : Ordered c e) {ev : Event ε}
    (hev : ∀ s, ev = .started s → Cleared c e.observed s ∧ .started s ∉ e.observed ∧
      s ∉ e.ready ∧ s ∉ e.taken ∧ s ∈ c.plan.steps ∧ ∀ n ∈ s.needs, settled e n = true) :
    Ordered c { e with observed := e.observed ++ [ev] } := by
  refine { h with
    taken := fun t ht => (h.taken t ht).mono, fresh := ?_, begun := ?_, ran := ?_, back := ?_
    lawful := h.lawful.concat fun t ht => ⟨(hev t ht).1, (hev t ht).2.1⟩ }
  · intro t ht hmem
    rcases mem_append.mp hmem with hmem | hmem
    · exact h.fresh t ht hmem
    · obtain ⟨-, -, hready, htaken, -⟩ := hev t (mem_singleton.mp hmem).symm
      exact ht.elim hready htaken
  · intro t ht
    rcases mem_append.mp ht with ht | ht
    · exact h.begun t ht
    · exact (hev t (mem_singleton.mp ht).symm).2.2.2.2
  · exact fun id r hr hrun => (h.ran id r hr hrun).imp_left (mem_append_left _)
  · exact fun r hr => (h.back r hr).imp_left fun hback hrun => mem_append_left _ (hback hrun)

theorem Ordered.move {a : Act ε} (h : Ordered c e) (hkept : Kept c e)
    (hmove : Move c e a e') : Ordered c e' := by
  cases hmove with
  | cancel hnot =>
    refine { h with skipped := ?_, back := ?_ }
    · intro id r hr hskip
      rcases h.skipped id r hr hskip with hf | hdry | hhead | hend
      · exact .inl hf
      · exact .inr (.inl hdry)
      · exact .inr (.inr (.inl ⟨rfl, hhead.2⟩))
      · exact .inr (.inr (.inr hend))
    · exact fun r hr => ⟨(h.back r hr).1, fun _ => .inl rfl⟩
  | @late s hs hwhy =>
    refine { h with taken := fun t ht => h.taken t (mem_of_mem_erase ht), fresh := ?_, back := ?_ }
    · exact fun t ht => h.fresh t (ht.imp_right mem_of_mem_erase)
    · intro r hr
      rcases mem_append.mp hr with hr | hr
      · exact h.back r hr
      · rw [mem_singleton.mp hr]
        exact ⟨by simp, fun _ => hwhy⟩
  | @start s hs hcancel hstop =>
    have hflight : s ∈ inFlight e := by simp [inFlight, hs]
    obtain ⟨hstep, -, hneeds⟩ := hkept.waiting s (.inr hflight)
    -- the step is not handed out a second time
    have htwice : s ∉ e.taken.erase s := by
      have hnodup := hkept.flight
      rw [inFlight, append_assoc] at hnodup
      exact fun ht => (hnodup.of_append_left.mem_erase_iff.mp ht).1 rfl
    have hfewer : Ordered c { e with taken := e.taken.erase s, active := e.active ++ [s] } :=
      { h with
        taken := fun t ht => h.taken t (mem_of_mem_erase ht)
        fresh := fun t ht => h.fresh t (ht.imp_right mem_of_mem_erase) }
    refine hfewer.observe fun t ht => ?_
    cases ht
    exact ⟨h.taken s hs, h.fresh s (.inr hs), fun ht => hkept.apart s ht hflight, htwice, hstep,
      hneeds⟩
  | @finish s err hs =>
    have hlogged : Ordered c { e with
        observed := e.observed ++ [.finished ⟨s, err.map .run, false⟩] } := h.observe (by simp)
    refine { hlogged with back := fun r hr => ?_ }
    rcases mem_append.mp hr with hr | hr
    · exact hlogged.back r hr
    · rw [mem_singleton.mp hr]
      exact ⟨fun _ => mem_append_right _ (by simp), by simp⟩
  | @turn k hturn =>
    have hstop := h.stopped
    refine h.goto ?_ ?_ id ?_
    · intro hend
      cases hturn <;> simp_all
    · intro hst
      cases hturn <;> simp_all
    · rintro rfl
      cases hturn with
      | offer _ hclear _ _ => exact hclear
  | halt hwhy ha => exact h.goto (fun _ => .inl rfl) (fun _ => .inl rfl) (fun _ => rfl) (by simp)
  | @skip b s rest r blocked hcounter hready hskip =>
    have hs : s ∈ e.ready := hready ▸ mem_cons_self
    obtain ⟨rfl, hskipped, hblocked⟩ := skip_step hskip
    have hfewer : Ordered c { e with ready := rest } :=
      h.fewer (by simp [hready]) (Subset.refl _) (by simp [hcounter])
    refine hfewer.settle (hkept.next hready).1 (hkept.waiting _ (.inl hs)).2.1 ?_ ?_
      (by simp [hcounter]) (by simp) ?_
    · intro hrun
      rw [hskipped] at hrun
      cases hrun
    · exact fun _ => hblocked.symm.imp And.left .inl
    · intro hst
      have := h.stopped hst
      simp [hcounter] at this
  | @hand s rest hcounter hready =>
    have hs : s ∈ e.ready := hready ▸ mem_cons_self
    refine ⟨?_, ?_, h.begun, h.lawful, h.ran, ?_, h.back, ?_, by simp⟩
    · intro t ht
      rcases mem_append.mp ht with ht | ht
      · exact h.taken t ht
      · rw [mem_singleton.mp ht]
        exact h.cleared hkept hcounter hready
    · rintro t (ht | ht)
      · exact h.fresh t (.inl (hready ▸ mem_cons_of_mem _ ht))
      · rcases mem_append.mp ht with ht | ht
        · exact h.fresh t (.inr ht)
        · rw [mem_singleton.mp ht]
          exact h.fresh s (.inl hs)
    · intro id r hr hskip
      rcases h.skipped id r hr hskip with hf | hdry | hrest
      · exact .inl hf
      · exact .inr (.inl hdry)
      · simp [hcounter] at hrest
    · intro hst
      have := h.stopped hst
      simp [hcounter] at this
  | receive hcounter hdone hgo =>
    refine h.received hkept hcounter hdone (.inl rfl) fun hst => ?_
    have := h.stopped hst
    simp [hcounter] at this
  | fail hcounter hdone herr hopt hgo =>
    exact h.received hkept hcounter hdone (.inr rfl) fun _ => rfl
  | @drop r rest hcounter hdone =>
    have hfewer : Ordered c { e with done := rest, running := e.running - 1 } :=
      h.fewer (Subset.refl _) (by simp [hdone]) (by simp [hcounter])
    exact hfewer.goto (fun _ => .inl rfl) (fun _ => .inl rfl) id (by simp)

theorem ordered_initial (c : Config) : Ordered c (initial c : Exec ε) := by
  refine ⟨nofun, fun _ _ => not_mem_nil, nofun, ?_, nofun, nofun, nofun, nofun, nofun⟩
  intro before s after h
  simp [initial] at h

/-- Starts and results are in order in every run. -/
theorem Runs.ordered {acts : List (Act ε)} (h : Runs c acts e) : Ordered c e := by
  have hboth : Kept c e ∧ Ordered c e :=
    h.invariant (P := fun _ => True) (I := fun e => Kept c e ∧ Ordered c e)
      ⟨kept_initial c, ordered_initial c⟩
      (fun _ _ _ _ hI hmove => ⟨hI.1.move hmove, hI.2.move hI.1 hmove⟩) fun _ _ => trivial
  exact hboth.2

/-- No step starts early or twice: when the observer is told that it starts, it
    was told before that everything the step needs ran to its end, without a
    failure unless that was optional, and it is told of the start only once. -/
theorem start_order {acts : List (Act ε)} {e : Exec ε} (h : Runs c acts e) {s : Step}
    {before after : List (Event ε)} (hstart : e.observed = before ++ .started s :: after) :
    (∀ n ∈ s.needs, ∃ r, .finished r ∈ before ∧ r.step ∈ c.plan.steps ∧ r.step.id = n ∧
      (r.err = none ∨ r.step.optional = true)) ∧
    ∀ t, .started t ∈ before ++ after → t.id ≠ s.id := by
  have hlawful := h.ordered.lawful
  refine ⟨(hlawful before s after hstart).1, fun t ht hid => ?_⟩
  have hmem : ∀ t, .started t ∈ before ++ .started s :: after → t ∈ c.plan.steps := fun t ht =>
    (h.ordered.begun t (hstart ▸ ht)).1
  obtain rfl : t = s := by
    refine eq_of_id (hmem t ?_) (hmem s (by simp)) hid
    rcases mem_append.mp ht with ht | ht <;> simp [ht]
  rcases mem_append.mp ht with ht | ht
  · exact (hlawful before t after hstart).2 ht
  · -- the second start would come after the first
    obtain ⟨mid, last, rfl⟩ := append_of_mem ht
    refine (hlawful (before ++ .started t :: mid) t last ?_).2 (by simp)
    rw [hstart, append_assoc, cons_append]

/-- A container and the wire that needs it. -/
def chain : Plan where
  steps :=
    [{ id := "create", stage := .create, scope := "as1", describe := "create r1", needs := []
       optional := false },
     { id := "wire", stage := .wire, scope := "peering", describe := "wire r1"
       needs := ["create"], optional := false }]
  named := by decide
  distinct := by decide

def chainConfig : Config where
  plan := chain
  options := { workers := 1, continueOnError := true, dryRun := false }
  cpus := 1

/-- Both steps are handed out, started and taken back in turn. -/
def chainActs : List (Act String) :=
  chain.steps.flatMap fun s =>
    [.advance, .advance, .advance, .start s, .advance, .advance, .finish s none, .advance]

/-- A chain of two steps, both of which run. -/
theorem start_order_chain : ∃ e : Exec String, Runs chainConfig chainActs e ∧
    ∃ before s, e.observed = before ++ [.started s, .finished ⟨s, none, false⟩] ∧
      (∀ n ∈ s.needs, ∃ r, .finished r ∈ before ∧ r.step ∈ chain.steps ∧ r.step.id = n ∧
        (r.err = none ∨ r.step.optional = true)) ∧ s.needs = ["create"] := by
  have hrun : ((executor chainConfig).run (initial chainConfig) chainActs).map Exec.observed =
      some (chain.steps.flatMap fun s => [.started s, .finished ⟨s, none, false⟩]) := by
    decide +kernel
  obtain ⟨e, he, hobserved⟩ := map_eq_some_iff.mp hrun
  have hruns : Runs chainConfig chainActs e := ⟨by decide +kernel, he⟩
  refine ⟨e, hruns, (chain.steps.take 1).flatMap fun s => [.started s, .finished ⟨s, none, false⟩],
    ⟨"wire", .wire, "peering", "wire r1", ["create"], false⟩, hobserved, ?_, rfl⟩
  exact (start_order hruns hobserved).1

end Plan

end Twinet
