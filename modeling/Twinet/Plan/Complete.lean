import Twinet.Plan.Order

/-!
# An Execution Comes to Its End

As long as a step has no result and nothing is in flight, some step waits for
nothing more, since no step waits for itself in the end; it is ready, so the
scheduler never finds that nothing can be run. Every action brings the execution
nearer to its end, and there is always one to take. What returns without having
been stopped has a result for every step.

## Main definitions

* `Live`: The scheduler waits only for what will come.
* `measure`: How far the end is at most.

## Theorems

* `Plan.all_settled`: With nothing ready or in flight every step has a result.
* `Plan.Runs.live`: No execution is stuck.
* `Plan.measure_move`: Every action brings the end nearer.
* `Plan.execution_completes`: Executions end, and with a result for every step.
* `Plan.inFlight_le_workers`: What is in flight has a worker each.
-/

namespace Twinet

namespace Plan

open List

variable {ε : Type} {c : Config} {e e' : Exec ε} {r : Result ε} {s : Step}

/-- The scheduler has left its loop. -/
def Counter.left : Counter → Bool
  | drain => true
  | returned => true
  | _ => false

/-- Every step that waits for nothing more is accounted for, and the scheduler
    waits only for what is under way. -/
structure Live (c : Config) (e : Exec ε) : Prop where
  covered : e.counter.left = false → ∀ s ∈ c.plan.steps, (∀ n ∈ s.needs, settled e n = true) →
    settled e s.id = true ∨ s ∈ e.ready ∨ s ∈ inFlight e
  unsettled : e.counter = .resolve false → pending c e ≠ []
  offer : e.counter = .offer → e.ready ≠ [] ∧ e.running < c.workers
  wait : e.counter = .wait → e.running ≠ 0 ∧ (e.ready = [] ∨ c.workers ≤ e.running)
  ended : e.counter.left = true → e.stop = none → pending c e = []
  stopped : e.stop.isSome = true → e.counter.left = true
  alive : ∀ names, e.stop ≠ some (.deadlock names)

theorem pending_eq_nil_iff :
    pending c e = [] ↔ ∀ s ∈ c.plan.steps, settled e s.id = true := by
  simp [pending, filter_eq_nil_iff]

/-- With nothing ready or in flight every step has a result, by induction on how
    much a step waits for. -/
theorem all_settled (hclosed : c.plan.Closed) (hacyclic : c.plan.Acyclic)
    (hready : e.ready = []) (hflight : inFlight e = [])
    (hcovered : ∀ s ∈ c.plan.steps, (∀ n ∈ s.needs, settled e n = true) →
      settled e s.id = true ∨ s ∈ e.ready ∨ s ∈ inFlight e) :
    ∀ s ∈ c.plan.steps, settled e s.id = true := by
  obtain ⟨rank, hrank⟩ := hacyclic
  intro s hs
  induction hn : rank s.id using Nat.strongRecOn generalizing s with
  | ind n ih =>
    have hneeds : ∀ m ∈ s.needs, settled e m = true := by
      intro m hm
      obtain ⟨t, ht, rfl⟩ := hclosed s hs m hm
      exact ih _ (hn ▸ hrank s hs t.id hm) t ht rfl
    rcases hcovered s hs hneeds with hset | hmem | hmem
    · exact hset
    · rw [hready] at hmem
      cases hmem
    · rw [hflight] at hmem
      cases hmem

theorem covered_settle (hkept : Kept c e) {b : Bool}
    (hnone : e.results r.step.id = none)
    (hcovered : ∀ s ∈ c.plan.steps, s ≠ r.step → (∀ n ∈ s.needs, settled e n = true) →
      settled e s.id = true ∨ s ∈ e.ready ∨ s ∈ inFlight e) :
    ∀ s ∈ c.plan.steps, (∀ n ∈ s.needs, settled (settle c e r b) n = true) →
      settled (settle c e r b) s.id = true ∨ s ∈ (settle c e r b).ready ∨ s ∈ inFlight e := by
  intro s hs hneeds
  by_cases hself : s = r.step
  · exact .inl (settled_settle.mpr (.inl (hself ▸ rfl)))
  by_cases hneed : r.step.id ∈ s.needs
  · exact .inr (.inl ((mem_settle_ready hkept hnone).mpr (.inr ⟨hs, hneed, hneeds⟩)))
  · -- it did not wait for this step, so it was accounted for before
    have hold : ∀ n ∈ s.needs, settled e n = true := by
      intro n hn
      rcases settled_settle.mp (hneeds n hn) with rfl | hset
      · exact absurd hn hneed
      · exact hset
    rcases hcovered s hs hself hold with hset | hready | hflight
    · exact .inl (settled_settle.mpr (.inr hset))
    · exact .inr (.inl ((mem_settle_ready hkept hnone).mpr (.inl hready)))
    · exact .inr (.inr hflight)

theorem Live.pass (h : Live c e) (hready : e'.ready = e.ready)
    (hflight : (inFlight e').Perm (inFlight e)) (hresults : e'.results = e.results)
    (hcounter : e'.counter = e.counter) (hrunning : e'.running = e.running)
    (hstop : e'.stop = e.stop) : Live c e' := by
  have hsettled : ∀ n, settled e' n = settled e n := fun n => by rw [settled, hresults, settled]
  have hpending : pending c e' = pending c e := by simp [pending, hsettled]
  refine ⟨?_, ?_, ?_, ?_, ?_, ?_, ?_⟩
  · intro hleft s hs hneeds
    simp only [hsettled] at hneeds ⊢
    rw [hready, hflight.mem_iff]
    exact h.covered (hcounter ▸ hleft) s hs hneeds
  · rw [hcounter, hpending]
    exact h.unsettled
  · rw [hcounter, hready, hrunning]
    exact h.offer
  · rw [hcounter, hrunning, hready]
    exact h.wait
  · rw [hcounter, hstop, hpending]
    exact h.ended
  · rw [hcounter, hstop]
    exact h.stopped
  · rw [hstop]
    exact h.alive

theorem Live.notStopped (h : Live c e) (hleft : e.counter.left = false) :
    e.stop = none := by
  cases hstop : e.stop with
  | none => rfl
  | some why =>
    have := h.stopped (by rw [hstop]; rfl)
    rw [hleft] at this
    cases this

theorem Live.noDeadlock (h : Live c e) (hkept : Kept c e) (hclosed : c.plan.Closed)
    (hacyclic : c.plan.Acyclic) (hcounter : e.counter = .resolve false) (hrunning : e.running = 0)
    (hready : e.ready = []) : False := by
  have hflight : inFlight e = [] := by
    rw [← length_eq_zero_iff, ← hkept.running]
    exact hrunning
  refine h.unsettled hcounter (pending_eq_nil_iff.mpr ?_)
  exact all_settled hclosed hacyclic hready hflight (h.covered (hcounter ▸ rfl))

theorem covered_next (h : Live c e) (hleft : e.counter.left = false) {rest : List Step}
    (hready : e.ready = s :: rest) : ∀ t ∈ c.plan.steps, t ≠ s →
    (∀ n ∈ t.needs, settled e n = true) →
    settled e t.id = true ∨ t ∈ rest ∨ t ∈ inFlight e := by
  intro t ht hne hneeds
  rcases h.covered hleft t ht hneeds with hset | hmem | hmem
  · exact .inl hset
  · rw [hready] at hmem
    exact .inr (.inl ((mem_cons.mp hmem).resolve_left hne))
  · exact .inr (.inr hmem)

variable {rest : List (Result ε)}

theorem covered_received (h : Live c e) (hkept : Kept c e) (hcounter : e.counter = .wait)
    (hdone : e.done = r :: rest) : ∀ s ∈ c.plan.steps,
    (∀ n ∈ s.needs,
      settled (settle c { e with done := rest, running := e.running - 1 } r false) n = true) →
    settled (settle c { e with done := rest, running := e.running - 1 } r false) s.id = true ∨
      s ∈ (settle c { e with done := rest, running := e.running - 1 } r false).ready ∨
      s ∈ inFlight { e with done := rest, running := e.running - 1 } := by
  obtain ⟨hpop, -, hin⟩ := hkept.pop hdone
  refine covered_settle hpop (hkept.waiting _ (.inr hin)).2.1 fun t ht hne hneeds => ?_
  rcases h.covered (hcounter ▸ rfl) t ht hneeds with hset | hmem | hmem
  · exact .inl hset
  · exact .inr (.inl hmem)
  · have hmem := (inFlight_pop (n := e.running - 1) hdone).mem_iff.mp hmem
    exact .inr (.inr ((mem_cons.mp hmem).resolve_left hne))

variable {k : Counter}

theorem Live.inLoop (h : Live c e) (hleft : e.counter.left = false) :
    e.stop.isSome = true → k.left = true := by
  intro hs
  rw [h.notStopped hleft] at hs
  cases hs

theorem Live.turn (h : Live c e) (hturn : Turn c e k) : Live c { e with counter := k } := by
  cases hturn with
  | resolve hcounter hpending hcancel =>
    have hleft : e.counter.left = false := hcounter ▸ rfl
    exact ⟨fun _ => h.covered hleft, fun _ => hpending, nofun, nofun, nofun, h.inLoop hleft,
      h.alive⟩
  | drain hcounter hpending =>
    exact ⟨nofun, nofun, nofun, nofun, fun _ _ => hpending, fun _ => rfl, h.alive⟩
  | head hcounter =>
    have hleft : e.counter.left = false := hcounter ▸ rfl
    exact ⟨fun _ => h.covered hleft, nofun, nofun, nofun, nofun, h.inLoop hleft, h.alive⟩
  | offer hcounter hclear hready hfree =>
    have hleft : e.counter.left = false := hcounter ▸ rfl
    exact ⟨fun _ => h.covered hleft, nofun, fun _ => ⟨hready, hfree⟩, nofun, nofun,
      h.inLoop hleft, h.alive⟩
  | wait hcounter hrunning hready =>
    have hleft : e.counter.left = false := hcounter ▸ rfl
    exact ⟨fun _ => h.covered hleft, nofun, nofun, fun _ => ⟨hrunning, hready⟩, nofun,
      h.inLoop hleft, h.alive⟩
  | returned hcounter hrunning =>
    exact ⟨nofun, nofun, nofun, nofun, fun _ => h.ended (hcounter ▸ rfl), fun _ => rfl,
      h.alive⟩

variable {a : Act ε}

theorem Live.move (h : Live c e) (hkept : Kept c e) (hclosed : c.plan.Closed)
    (hacyclic : c.plan.Acyclic) (hmove : Move c e a e') : Live c e' := by
  cases hmove with
  | cancel hnot => exact { h with }
  | late hs hwhy => exact h.pass rfl (inFlight_late hs _) rfl rfl rfl rfl
  | start hs hcancel hstop => exact h.pass rfl (inFlight_start hs _) rfl rfl rfl rfl
  | finish err hs => exact h.pass rfl (inFlight_finish hs err) rfl rfl rfl rfl
  | turn hturn => exact h.turn hturn
  | halt hwhy ha =>
    refine ⟨nofun, nofun, nofun, nofun, nofun, fun _ => rfl, fun names heq => ?_⟩
    cases hwhy with
    | context hcancel hcounter => cases heq
    | deadlock hcounter hrunning hready =>
      exact h.noDeadlock hkept hclosed hacyclic hcounter hrunning hready
  | @skip b s rest r blocked hcounter hready hskip =>
    -- a settled step may have freed others, which are ready then
    have hleft : e.counter.left = false := hcounter ▸ rfl
    obtain ⟨rfl, -, -⟩ := skip_step hskip
    have hs : r.step ∈ e.ready := hready ▸ mem_cons_self
    have hcovered := covered_settle (b := blocked) (hkept.next hready).1
      (hkept.waiting _ (.inl hs)).2.1 (covered_next h hleft hready)
    exact ⟨fun _ => hcovered, nofun, nofun, nofun, nofun, h.inLoop hleft, h.alive⟩
  | @hand s rest hcounter hready =>
    have hleft : e.counter.left = false := hcounter ▸ rfl
    refine ⟨fun _ t ht hneeds => ?_, nofun, nofun, nofun, nofun, h.inLoop hleft, h.alive⟩
    have hperm := inFlight_hand e s rest (e.running + 1) .head
    by_cases hself : t = s
    · exact .inr (.inr (hperm.mem_iff.mpr (hself ▸ mem_cons_self)))
    · rcases covered_next h hleft hready t ht hself hneeds with hset | hmem | hmem
      · exact .inl hset
      · exact .inr (.inl hmem)
      · exact .inr (.inr (hperm.mem_iff.mpr (mem_cons_of_mem _ hmem)))
  | receive hcounter hdone hgo =>
    have hleft : e.counter.left = false := hcounter ▸ rfl
    exact ⟨fun _ => covered_received h hkept hcounter hdone, nofun, nofun, nofun, nofun,
      h.inLoop hleft, h.alive⟩
  | fail hcounter hdone herr hopt hgo =>
    exact ⟨nofun, nofun, nofun, nofun, nofun, fun _ => rfl, nofun⟩
  | drop hcounter hdone =>
    exact ⟨nofun, nofun, nofun, nofun, fun _ => h.ended (hcounter ▸ rfl), fun _ => rfl,
      h.alive⟩

theorem live_initial (c : Config) : Live c (initial c : Exec ε) := by
  refine ⟨fun _ s hs hneeds => ?_, nofun, nofun, nofun, nofun, nofun, nofun⟩
  -- nothing has a result yet, so the step needs nothing
  have hnil : s.needs = [] := by
    refine eq_nil_iff_forall_not_mem.mpr fun n hn => ?_
    cases hneeds n hn
  exact .inr (.inl (mem_filter.mpr ⟨hs, by simp [hnil]⟩))

variable {acts : List (Act ε)}

/-- No execution is stuck. -/
theorem Runs.live (h : Runs c acts e) : Live c e := by
  obtain ⟨hclosed, hacyclic, -⟩ := validate_iff.mp h.1
  have hboth : Kept c e ∧ Live c e :=
    h.invariant (P := fun _ => True) (I := fun e => Kept c e ∧ Live c e)
      ⟨kept_initial c, live_initial c⟩
      (fun _ _ _ _ hI hmove => ⟨hI.1.move hmove, hI.2.move hI.1 hclosed hacyclic hmove⟩)
      fun _ _ => trivial
  exact hboth.2

/-! ### Coming to an end -/

def Counter.weight : Counter → Nat
  | head => 4
  | resolve progressed => if progressed then 5 else 3
  | offer => 2
  | wait => 2
  | drain => 1
  | returned => 0

/-- The steps without a result that no worker has. -/
def idle (c : Config) (e : Exec ε) : Finset Step :=
  c.plan.steps.toFinset.filter fun s => settled e s.id = false ∧ s ∉ inFlight e

/-- What is left to do for the steps that the workers have. -/
def load (e : Exec ε) : Nat := 12 * e.taken.length + 11 * e.active.length + 10 * e.done.length

/-- How far the end is at most. Steps that no worker has do not matter any more
    once the scheduler has left its loop. -/
def measure (c : Config) (e : Exec ε) : Nat :=
  (bif e.counter.left then 0 else 20 * (idle c e).card) + load e + e.counter.weight +
    bif e.cancelled then 0 else 1

theorem idle_pass (hflight : (inFlight e').Perm (inFlight e))
    (hresults : e'.results = e.results) : idle c e' = idle c e := by
  refine Finset.filter_congr fun s _ => ?_
  rw [settled, settled, hresults, hflight.mem_iff]

theorem length_erase {l : List Step} (h : s ∈ l) :
    (l.erase s).length + 1 = l.length := by
  rw [length_erase_of_mem h]
  have := length_pos_of_mem h
  omega

theorem mem_idle :
    s ∈ idle c e ↔ s ∈ c.plan.steps ∧ settled e s.id = false ∧ s ∉ inFlight e := by
  rw [idle, Finset.mem_filter, mem_toFinset]

theorem idle_lt (hkept : Kept c e) (hs : s ∈ e.ready)
    (hs' : settled e' s.id = true ∨ s ∈ inFlight e')
    (hsettled : ∀ id, settled e id = true → settled e' id = true)
    (hflight : ∀ t ∈ inFlight e, t ∈ inFlight e') : (idle c e').card < (idle c e).card := by
  refine Finset.card_lt_card ⟨fun t ht => ?_, fun hsub => ?_⟩
  · obtain ⟨ht, hun, hout⟩ := mem_idle.mp ht
    refine mem_idle.mpr ⟨ht, ?_, fun hmem => hout (hflight t hmem)⟩
    rw [← Bool.not_eq_true] at hun ⊢
    exact fun hset => hun (hsettled _ hset)
  · obtain ⟨hstep, hnone, -⟩ := hkept.waiting s (.inl hs)
    have hidle : s ∈ idle c e :=
      mem_idle.mpr ⟨hstep, by rw [settled, hnone]; rfl, hkept.apart s hs⟩
    obtain ⟨-, hun, hout⟩ := mem_idle.mp (hsub hidle)
    rcases hs' with hset | hmem
    · rw [hset] at hun
      cases hun
    · exact hout hmem

theorem idle_received (hdone : e.done = r :: rest) :
    (idle c { settle c { e with done := rest, running := e.running - 1 } r false with
      counter := k }).card ≤ (idle c e).card := by
  refine Finset.card_le_card fun t ht => ?_
  obtain ⟨ht, hun, hout⟩ := mem_idle.mp ht
  have hun : ¬ (t.id = r.step.id ∨ settled e t.id = true) := by
    intro hset
    have hset := settled_settle (c := c) (b := false)
      (e := { e with done := rest, running := e.running - 1 }) |>.mpr hset
    nomatch hun.symm.trans hset
  refine mem_idle.mpr ⟨ht, ?_, fun hmem => ?_⟩
  · rw [← Bool.not_eq_true]
    exact fun hset => hun (.inr hset)
  · rcases mem_cons.mp ((inFlight_pop (n := e.running - 1) hdone).mem_iff.mp hmem) with
      rfl | hmem
    · exact hun (.inl rfl)
    · exact hout hmem

theorem measure_goto {st : Option (StopError ε)} (hweight : k.weight < e.counter.weight)
    (hleft : e.counter.left = true → k.left = true) :
    measure c { e with counter := k, stop := st } < measure c e := by
  have hidle : idle c { e with counter := k, stop := st } = idle c e :=
    idle_pass (Perm.refl _) rfl
  have hloop : (bif k.left then 0 else 20 * (idle c e).card) ≤
      bif e.counter.left then 0 else 20 * (idle c e).card := by
    cases hl : e.counter.left with
    | true => simp [hleft hl]
    | false => cases k.left <;> simp
  have hload : load { e with counter := k, stop := st } = load e := rfl
  simp only [measure, hidle, hload]
  omega

theorem weight_le (k : Counter) : k.weight ≤ 5 := by
  cases k with
  | resolve progressed => cases progressed <;> decide
  | _ => decide

theorem idle_term_le (k : Counter) (n : Nat) : (bif k.left then 0 else 20 * n) ≤ 20 * n := by
  cases k.left <;> simp

theorem load_received (hdone : e.done = r :: rest) {n : Nat} :
    load { e with done := rest, running := n } + 10 = load e := by
  simp only [load, hdone, length_cons]
  omega

theorem measure_lt_of_idle (hleft : e.counter.left = false)
    (hidle : (idle c e').card < (idle c e).card) (hload : load e' ≤ load e + 12)
    (hcancel : e'.cancelled = e.cancelled) : measure c e' < measure c e := by
  have := weight_le e'.counter
  have := idle_term_le e'.counter (idle c e').card
  simp only [measure, hleft, cond_false, hcancel]
  omega

theorem measure_lt_of_load (hleft : e'.counter.left = true ∨
    (e.counter.left = false ∧ (idle c e').card ≤ (idle c e).card)) (hload : load e' + 10 = load e)
    (hcancel : e'.cancelled = e.cancelled) : measure c e' < measure c e := by
  have := weight_le e'.counter
  rcases hleft with hleft | ⟨hleft, hidle⟩
  · simp only [measure, hleft, cond_true, hcancel]
    omega
  · have := idle_term_le e'.counter (idle c e').card
    simp only [measure, hleft, cond_false, hcancel]
    omega

/-- Every action brings the end nearer. -/
theorem measure_move (hkept : Kept c e) (hmove : Move c e a e') : measure c e' < measure c e := by
  cases hmove with
  | cancel hnot =>
    have hidle : idle c { e with cancelled := true } = idle c e :=
      idle_pass (Perm.refl _) rfl
    have hload : load { e with cancelled := true } = load e := rfl
    simp only [measure, hidle, hload, hnot, cond_true, cond_false]
    omega
  | late hs hwhy =>
    -- a worker brings its step one place further
    have hlen := length_erase hs
    simp only [measure, load, idle_pass (inFlight_late hs _) rfl, length_append,
      length_singleton]
    omega
  | start hs hcancel hstop =>
    have hlen := length_erase hs
    simp only [measure, load, idle_pass (inFlight_start hs _) rfl, length_append,
      length_singleton]
    omega
  | finish err hs =>
    have hlen := length_erase hs
    simp only [measure, load, idle_pass (inFlight_finish hs err) rfl]
    simp only [Plan.finish, length_append, length_singleton]
    omega
  | turn hturn =>
    -- the scheduler alone is nearer to the end of its loop
    cases hturn with
    | resolve hcounter _ _ | offer hcounter _ _ _
    | drain hcounter _ | head hcounter | wait hcounter _ _ =>
      exact measure_goto (by rw [hcounter]; decide) (by simp [hcounter, Counter.left])
    | returned hcounter _ => exact measure_goto (by rw [hcounter]; decide) fun _ => rfl
  | halt hwhy ha =>
    refine measure_goto ?_ fun _ => rfl
    cases hwhy with
    | context hcancel hcounter => rcases hcounter with h | h | h <;> rw [h] <;> decide
    | deadlock hcounter _ _ =>
      rw [hcounter]
      decide
  | @skip b s rest r blocked hcounter hready hskip =>
    obtain ⟨rfl, -, -⟩ := skip_step hskip
    have hs : r.step ∈ e.ready := hready ▸ mem_cons_self
    have hset : ∀ id, id = r.step.id ∨ settled e id = true →
        settled (settle c { e with ready := rest } r blocked) id = true :=
      fun id => (settled_settle (e := { e with ready := rest })).mpr
    -- a skipped step has a result and is idle no more
    have hidle : (idle c { settle c { e with ready := rest } r blocked with
        counter := .resolve true }).card < (idle c e).card :=
      idle_lt hkept hs (.inl (hset _ (.inl rfl))) (fun id h => hset id (.inr h))
        (fun _ h => h)
    have hleft : e.counter.left = false := hcounter ▸ rfl
    exact measure_lt_of_idle hleft hidle (Nat.le_add_right _ _) rfl
  | @hand s rest hcounter hready =>
    have hs : s ∈ e.ready := hready ▸ mem_cons_self
    have hperm := inFlight_hand e s rest (e.running + 1) .head
    have hidle := idle_lt hkept hs (.inr (hperm.mem_iff.mpr mem_cons_self))
      (fun _ h => h) (fun t ht => hperm.mem_iff.mpr (mem_cons_of_mem _ ht))
    have hleft : e.counter.left = false := hcounter ▸ rfl
    refine measure_lt_of_idle hleft hidle ?_ rfl
    simp only [load, length_append, length_singleton]
    omega
  | receive hcounter hdone hgo =>
    have hleft : e.counter.left = false := hcounter ▸ rfl
    exact measure_lt_of_load (.inr ⟨hleft, idle_received hdone⟩)
      (load_received (n := e.running - 1) hdone) rfl
  | fail hcounter hdone herr hopt hgo | drop hcounter hdone =>
    exact measure_lt_of_load (.inl rfl) (load_received (n := e.running - 1) hdone) rfl

theorem measure_initial (c : Config) :
    measure c (initial c : Exec ε) ≤ 20 * c.plan.steps.length + 5 := by
  have hcard : (idle c (initial c : Exec ε)).card ≤ c.plan.steps.length :=
    (Finset.card_filter_le _ _).trans (toFinset_card_le _)
  have := idle_term_le (initial c : Exec ε).counter (idle c (initial c : Exec ε)).card
  have hload : load (initial c : Exec ε) = 0 := rfl
  have hweight : (initial c : Exec ε).counter.weight = 4 := rfl
  have hcancel : (initial c : Exec ε).cancelled = false := rfl
  simp only [measure, hload, hweight, hcancel, cond_false]
  omega

theorem exists_action (hkept : Kept c e) (hlive : Live c e)
    (hend : e.counter ≠ .returned) :
    ∃ a, a ≠ .cancel ∧ (executor c).accepts e a = true := by
  have hbusy : e.running ≠ 0 → e.done = [] → ∃ a, a ≠ .cancel ∧
      (executor c).accepts e a = true := by
    intro hrunning hdone
    cases htaken : e.taken with
    | cons s rest => exact ⟨.start s, by simp, by simp [executor, htaken]⟩
    | nil =>
      cases hactive : e.active with
      | cons s rest => exact ⟨.finish s none, by simp, by simp [executor, hactive]⟩
      | nil => exact absurd (by simp [hkept.running, inFlight, htaken, hactive, hdone]) hrunning
  have hadvance : canAdvance e = true → ∃ a, a ≠ .cancel ∧ (executor c).accepts e a = true :=
    fun h => ⟨.advance, by simp, h⟩
  cases hcounter : e.counter with
  | head | resolve progressed => exact hadvance (by simp [canAdvance, hcounter])
  | offer => exact hadvance (by simp [canAdvance, hcounter, (hlive.offer hcounter).1])
  | wait =>
    by_cases hdone : e.done = []
    · exact hbusy (hlive.wait hcounter).1 hdone
    · exact hadvance (by simp [canAdvance, hcounter, hdone])
  | drain =>
    by_cases hready : e.running = 0 ∨ e.done ≠ []
    · exact hadvance (by simpa [canAdvance, hcounter] using hready)
    · push Not at hready
      exact hbusy hready.1 hready.2
  | returned => exact absurd hcounter hend

theorem unstopped_move (hkept : Kept c e) (hlive : Live c e) (hclosed : c.plan.Closed)
    (hacyclic : c.plan.Acyclic) (hgo : c.options.continueOnError = true) (ha : a ≠ .cancel)
    (h : e.cancelled = false ∧ e.stop = none) (hmove : Move c e a e') :
    e'.cancelled = false ∧ e'.stop = none := by
  cases hmove with
  | cancel hnot => exact absurd rfl ha
  | halt hwhy _ =>
    cases hwhy with
    | context hcancel _ =>
      rw [h.1] at hcancel
      cases hcancel
    | deadlock hcounter hrunning hready =>
      exact (hlive.noDeadlock hkept hclosed hacyclic hcounter hrunning hready).elim
  | fail _ _ _ _ hstop =>
    rw [hgo] at hstop
    cases hstop
  | _ => exact h

theorem Runs.unstopped (h : Runs c acts e) (hgo : c.options.continueOnError = true)
    (hcancel : .cancel ∉ acts) : e.cancelled = false ∧ e.stop = none := by
  obtain ⟨hclosed, hacyclic, -⟩ := validate_iff.mp h.1
  have hall : (Kept c e ∧ Live c e) ∧ e.cancelled = false ∧ e.stop = none :=
    h.invariant (P := fun a => a ≠ .cancel)
      (I := fun e => (Kept c e ∧ Live c e) ∧ e.cancelled = false ∧ e.stop = none)
      ⟨⟨kept_initial c, live_initial c⟩, rfl, rfl⟩
      (fun _ _ _ ha hI hmove => ⟨⟨hI.1.1.move hmove, hI.1.2.move hI.1.1 hclosed hacyclic hmove⟩,
        unstopped_move hI.1.1 hI.1.2 hclosed hacyclic hgo ha hI.2 hmove⟩)
      fun a ha heq => hcancel (heq ▸ ha)
  exact hall.2

/-- Once every step has a result the report is what was recorded, step by step. -/
theorem report_results (hall : pending c e = []) :
    (report c e).map some = c.plan.steps.map fun s => e.results s.id := by
  have hrecorded : ∀ l : List Step, (∀ s ∈ l, s ∈ c.plan.steps) →
      (l.filterMap fun s => e.results s.id).map some = l.map fun s => e.results s.id := by
    intro l
    induction l with
    | nil => exact fun _ => rfl
    | cons s rest ih =>
      intro hsub
      obtain ⟨hs, hrest⟩ := forall_mem_cons.mp hsub
      obtain ⟨r, hr⟩ := Option.isSome_iff_exists.mp (pending_eq_nil_iff.mp hall s hs)
      simp only [filterMap_cons, hr, map_cons]
      rw [ih hrest]
  exact hrecorded _ fun _ h => h

/-- The report then has one entry for every step, in the order of the plan. -/
theorem report_steps (hkept : Kept c e) (hall : pending c e = []) :
    (report c e).map Result.step = c.plan.steps := by
  have hsteps : ∀ s ∈ c.plan.steps, (e.results s.id).map Result.step = some s := by
    intro s hs
    obtain ⟨r, hr⟩ := Option.isSome_iff_exists.mp (pending_eq_nil_iff.mp hall s hs)
    obtain ⟨hr', hid, -⟩ := hkept.recorded s.id r hr
    rw [hr, Option.map_some, eq_of_id hr' hs hid]
  refine map_injective_iff.mpr (Option.some_injective Step) ?_
  calc ((report c e).map Result.step).map some
      = ((report c e).map some).map (Option.map Result.step) := by
        simp only [map_map, Function.comp_def, Option.map_some]
    _ = c.plan.steps.map some := by
        rw [report_results hall, map_map]
        exact map_congr_left hsteps

/-- An execution is never stuck and never finds that nothing can be run. It ends
    after a bounded number of actions, and if it goes on after failures and is
    not cancelled, then with one result for every step, in the order of the
    plan: the one that was recorded, and what the observer was told of a step
    that ran. -/
theorem execution_completes {acts : List (Act ε)} {e : Exec ε} (h : Runs c acts e) :
    (∀ names, e.stop ≠ some (.deadlock names)) ∧
    acts.length ≤ 20 * c.plan.steps.length + 5 ∧
    (e.counter ≠ .returned → ∃ a, a ≠ .cancel ∧ (executor c).accepts e a = true) ∧
    (c.options.continueOnError = true → .cancel ∉ acts → e.counter = .returned →
      e.stop = none ∧ (report c e).map Result.step = c.plan.steps ∧
        (report c e).map some = (c.plan.steps.map fun s => e.results s.id) ∧
        ∀ r ∈ report c e, r.skipped = false → .finished r ∈ e.observed) := by
  refine ⟨h.live.alive, ?_, exists_action h.kept h.live, fun hgo hcancel hend => ?_⟩
  · have hle := Guarded.run_length (P := fun _ => True) (I := Kept c) (μ := measure c)
      (fun e a _ hI hacc => hI.move (move_of_accepts hacc))
      (fun e a _ hI hacc => measure_move hI (move_of_accepts hacc))
      (fun _ _ => trivial) (kept_initial c) h.2
    have := measure_initial (ε := ε) c
    omega
  · obtain ⟨-, hstop⟩ := h.unstopped hgo hcancel
    have hall := h.live.ended (by rw [hend]; rfl) hstop
    refine ⟨hstop, report_steps h.kept hall, report_results hall, fun r hr hran => ?_⟩
    obtain ⟨s, -, hs⟩ := mem_filterMap.mp hr
    exact (h.ordered.ran s.id r hs hran).1

/-- The chain is run to its end. -/
theorem execution_completes_chain : ∃ e : Exec String,
    Runs chainConfig (chainActs ++ [.advance, .advance]) e ∧ e.counter = .returned ∧
      e.stop = none ∧ (report chainConfig e).map Result.step = chain.steps ∧
      (report chainConfig e).map some = (chain.steps.map fun s => e.results s.id) ∧
      ∀ r ∈ report chainConfig e, r.skipped = false → .finished r ∈ e.observed := by
  have hrun : ((executor chainConfig).run (initial chainConfig)
      (chainActs ++ [.advance, .advance])).map Exec.counter = some .returned := by
    decide +kernel
  obtain ⟨e, he, hend⟩ := Option.map_eq_some_iff.mp hrun
  have hruns : Runs chainConfig (chainActs ++ [.advance, .advance]) e := ⟨by decide +kernel, he⟩
  exact ⟨e, hruns, hend, (execution_completes hruns).2.2.2 rfl (by decide) hend⟩

/-! ### The pool -/

theorem running_le_move (hlive : Live c e) (h : e.running ≤ c.workers)
    (hmove : Move c e a e') : e'.running ≤ c.workers := by
  cases hmove with
  | hand hcounter hready => exact (hlive.offer hcounter).2
  | receive | fail | drop => exact (Nat.sub_le ..).trans h
  | _ => exact h

/-- In every execution no more steps are in flight than there are workers, and no step is
    in two hands. -/
theorem inFlight_le_workers {acts : List (Act ε)} {e : Exec ε} (h : Runs c acts e) :
    (inFlight e).length ≤ c.workers ∧ (inFlight e).Nodup := by
  obtain ⟨hclosed, hacyclic, -⟩ := validate_iff.mp h.1
  have hpool : (Kept c e ∧ Live c e) ∧ e.running ≤ c.workers :=
    h.invariant (P := fun _ => True)
      (I := fun e => (Kept c e ∧ Live c e) ∧ e.running ≤ c.workers)
      ⟨⟨kept_initial c, live_initial c⟩, Nat.zero_le _⟩
      (fun _ _ _ _ hI hmove => ⟨⟨hI.1.1.move hmove, hI.1.2.move hI.1.1 hclosed hacyclic hmove⟩,
        running_le_move hI.1.2 hI.2 hmove⟩)
      fun _ _ => trivial
  exact ⟨h.kept.running ▸ hpool.2, h.kept.flight⟩

/-- One worker, which has begun the first of the two steps. -/
theorem inFlight_le_workers_chain : ∃ e : Exec String, Runs chainConfig (chainActs.take 4) e ∧
    inFlight e = chain.steps.take 1 ∧ (inFlight e).length ≤ 1 ∧ (inFlight e).Nodup := by
  have hrun : ((executor chainConfig).run (initial chainConfig) (chainActs.take 4)).map inFlight =
      some (chain.steps.take 1) := by
    decide +kernel
  obtain ⟨e, he, hflight⟩ := Option.map_eq_some_iff.mp hrun
  have hruns : Runs chainConfig (chainActs.take 4) e := ⟨by decide +kernel, he⟩
  exact ⟨e, hruns, hflight, inFlight_le_workers hruns⟩

end Plan

end Twinet
