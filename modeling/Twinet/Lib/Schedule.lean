import Mathlib.Algebra.Order.BigOperators.Group.List
import Mathlib.Algebra.Order.Group.Nat
import Mathlib.Data.List.Induction

/-!
# Schedules

Running a plan of jobs that wait for each other. A job is a list of effects,
performed in order, and it starts when every job it needs is finished. Nothing
else is fixed: the effects of jobs that do not wait for each other are
performed in any order, and a run can stop anywhere.

A run is described by its history, the effects performed so far with the job
each belongs to. What a job has done is read off the history.

## Main definitions

* `Schedule`: Jobs, what they need and what they do.
* `Schedule.History`: The order of effects in a run, as far as it got.
* `Schedule.Complete`: Every job is finished.

## Theorems

* `History.performed_prefix`: A job performs its effects in order.
* `History.of_append`: A run can be cut short anywhere.
* `History.needs_finished`: A job starts after every job it needs.
* `History.not_mem_of_finished`: A finished job does nothing more.
* `exists_complete`: Jobs whose needs are of a lower rank can all be finished.
* `Complete.split_at`: Every effect of a complete run stands somewhere.
-/

namespace Twinet

open List

variable {J E W : Type} [DecidableEq J]

/-- A plan of jobs: what each needs, and what each does. -/
structure Schedule (J E : Type) where
  jobs : List J
  needs : J → List J
  effects : J → List E

namespace Schedule

/-- The effects of one job in a history. -/
def performed (h : List (J × E)) (j : J) : List E :=
  (h.filter (fun x => x.1 = j)).map (·.2)

/-- The histories of a schedule: each effect is the next of its job, and every
    job that one needs is finished. -/
inductive History (p : Schedule J E) : List (J × E) → Prop
  | nil : History p []
  | step {h : List (J × E)} {j : J} {e : E} {rest : List E} (before : History p h)
      (job : j ∈ p.jobs) (next : p.effects j = performed h j ++ e :: rest)
      (ready : ∀ n ∈ p.needs j, performed h n = p.effects n) :
      History p (h ++ [(j, e)])

/-- Every job is finished. -/
def Complete (p : Schedule J E) (h : List (J × E)) : Prop :=
  History p h ∧ ∀ j ∈ p.jobs, performed h j = p.effects j

/-- The state a history leads to. -/
def run (apply : E → W → W) (w : W) (h : List (J × E)) : W :=
  h.foldl (fun w x => apply x.2 w) w

omit [DecidableEq J] in
@[simp]
theorem run_concat (apply : E → W → W) (w : W) (h : List (J × E)) (x : J × E) :
    run apply w (h ++ [x]) = apply x.2 (run apply w h) := by
  simp [run]

theorem performed_append (h h' : List (J × E)) (j : J) :
    performed (h ++ h') j = performed h j ++ performed h' j := by
  simp [performed]

@[simp]
theorem performed_concat_self (h : List (J × E)) (j : J) (e : E) :
    performed (h ++ [(j, e)]) j = performed h j ++ [e] := by
  simp [performed]

theorem performed_concat_of_ne (h : List (J × E)) {j k : J} (e : E) (hne : k ≠ j) :
    performed (h ++ [(k, e)]) j = performed h j := by
  simp [performed, hne]

theorem mem_performed {h : List (J × E)} {j : J} {e : E} : e ∈ performed h j ↔ (j, e) ∈ h := by
  simp [performed]

variable {p : Schedule J E} {h h₁ h₂ : List (J × E)}

/-- A job performs its effects in order. -/
theorem History.performed_prefix (hist : History p h) (j : J) :
    (performed h j) <+: p.effects j := by
  induction hist with
  | nil => exact nil_prefix
  | @step h k e rest _ _ next _ ih =>
    by_cases hk : k = j
    · subst hk
      rw [performed_concat_self, next]
      exact ⟨rest, by simp⟩
    · rw [performed_concat_of_ne h e hk]
      exact ih

theorem History.mem_jobs (hist : History p h) {x : J × E} (hx : x ∈ h) : x.1 ∈ p.jobs := by
  induction hist with
  | nil => nomatch hx
  | step _ job _ _ ih =>
    rcases mem_append.mp hx with hx | hx
    · exact ih hx
    · rw [mem_singleton.mp hx]
      exact job

/-- A history can be cut short. -/
theorem History.of_append (hist : History p (h₁ ++ h₂)) : History p h₁ := by
  induction h₂ using reverseRecOn with
  | nil => rwa [append_nil] at hist
  | append_singleton rest x ih =>
    rw [← append_assoc] at hist
    generalize hall : h₁ ++ rest ++ [x] = all at hist
    cases hist with
    | nil => exact absurd hall (by simp)
    | step before _ _ _ =>
      obtain ⟨heq, -⟩ := append_inj' hall rfl
      exact ih (heq ▸ before)

theorem History.at {x : J × E} (hist : History p (h₁ ++ x :: h₂)) :
    (∃ rest, p.effects x.1 = performed h₁ x.1 ++ x.2 :: rest) ∧
      ∀ n ∈ p.needs x.1, performed h₁ n = p.effects n := by
  have hcut : History p (h₁ ++ [x]) := by
    rw [append_cons] at hist
    exact hist.of_append
  generalize hall : h₁ ++ [x] = all at hcut
  cases hcut with
  | nil => exact absurd hall (by simp)
  | step _ _ next ready =>
    obtain ⟨rfl, hx⟩ := append_inj' hall rfl
    obtain rfl := singleton_inj.mp hx
    exact ⟨⟨_, next⟩, ready⟩

/-- A finished job does nothing more. -/
theorem History.not_mem_of_finished (hist : History p (h₁ ++ h₂)) {n : J}
    (hdone : performed h₁ n = p.effects n) (e : E) : (n, e) ∉ h₂ := by
  intro hmem
  have hprefix := hist.performed_prefix n
  rw [performed_append, hdone] at hprefix
  have hlen := hprefix.length_le
  have hpos : 0 < (performed h₂ n).length := length_pos_of_mem (mem_performed.mpr hmem)
  rw [length_append] at hlen
  omega

theorem History.finished_append (hist : History p (h₁ ++ h₂)) {n : J}
    (hdone : performed h₁ n = p.effects n) : performed (h₁ ++ h₂) n = p.effects n := by
  have hnone : performed h₂ n = [] := by
    refine eq_nil_iff_forall_not_mem.mpr fun e he => ?_
    exact hist.not_mem_of_finished hdone e (mem_performed.mp he)
  rw [performed_append, hdone, hnone, append_nil]

/-- A job starts after all it needs. -/
theorem History.needs_finished (hist : History p h) {j n : J} (hstart : performed h j ≠ [])
    (hn : n ∈ p.needs j) : performed h n = p.effects n := by
  obtain ⟨e, he⟩ := exists_mem_of_ne_nil _ hstart
  obtain ⟨h₁, h₂, rfl⟩ := append_of_mem (mem_performed.mp he)
  exact hist.finished_append (hist.at.2 n hn)

theorem History.finish (hist : History p h) {j : J} (job : j ∈ p.jobs)
    (ready : ∀ n ∈ p.needs j, performed h n = p.effects n) :
    ∃ h', History p (h ++ h') ∧ performed (h ++ h') j = p.effects j := by
  obtain ⟨rest, hrest⟩ := hist.performed_prefix j
  induction rest generalizing h with
  | nil =>
    refine ⟨[], ?_, ?_⟩
    · rwa [append_nil]
    · rwa [append_nil] at hrest ⊢
  | cons e rest ih =>
    have hstep : History p (h ++ [(j, e)]) := History.step hist job hrest.symm ready
    obtain ⟨h', hh', hdone⟩ := ih hstep (fun n hn => hstep.finished_append (ready n hn))
      (by rw [performed_concat_self, append_assoc]; exact hrest)
    refine ⟨(j, e) :: h', ?_, ?_⟩
    · rwa [append_cons]
    · rwa [append_cons]

theorem History.finish_all {l : List J} (hist : History p h)
    (hl : ∀ j ∈ l, ∀ h, History p h →
      ∃ h', History p (h ++ h') ∧ performed (h ++ h') j = p.effects j) :
    ∃ h', History p (h ++ h') ∧ ∀ j ∈ l, performed (h ++ h') j = p.effects j := by
  induction l generalizing h with
  | nil => exact ⟨[], by rwa [append_nil], by simp⟩
  | cons j rest ih =>
    obtain ⟨h₁, hist₁, hj⟩ := hl j mem_cons_self h hist
    obtain ⟨h₂, hist₂, hrest⟩ := ih hist₁ fun k hk => hl k (mem_cons_of_mem _ hk)
    refine ⟨h₁ ++ h₂, ?_⟩
    rw [← append_assoc]
    exact ⟨hist₂, forall_mem_cons.mpr ⟨hist₂.finished_append hj, hrest⟩⟩

/-- Jobs whose needs are of a lower rank can all be finished. The induction is
    on the rank. -/
theorem exists_complete (rank : J → ℕ)
    (hneeds : ∀ j ∈ p.jobs, ∀ n ∈ p.needs j, n ∈ p.jobs ∧ rank n < rank j) :
    ∃ h, Complete p h := by
  refine ⟨_, History.nil.finish_all (l := p.jobs) (fun j hj => ?_) |>.choose_spec⟩
  induction hn : rank j using Nat.strongRecOn generalizing j with
  | ind n ih =>
    intro h hist
    obtain ⟨h₁, hist₁, hready⟩ := hist.finish_all fun m hm =>
      ih _ (hn ▸ (hneeds j hj m hm).2) m (hneeds j hj m hm).1 rfl
    obtain ⟨h₂, hist₂, hdone⟩ := hist₁.finish hj hready
    rw [append_assoc] at hist₂ hdone
    exact ⟨h₁ ++ h₂, hist₂, hdone⟩

theorem History.mem_effects (hist : History p h) {x : J × E} (hx : x ∈ h) :
    x.2 ∈ p.effects x.1 :=
  (hist.performed_prefix x.1).subset (mem_performed.mpr hx)

/-- What is to be done is the next of its job each time, after what is done. -/
def legal [DecidableEq E] (p : Schedule J E) : List (J × E) → List (J × E) → Bool
  | _, [] => true
  | done, x :: rest =>
    decide (x.1 ∈ p.jobs) && (performed done x.1 ++ [x.2]).isPrefixOf (p.effects x.1) &&
      (p.needs x.1).all (fun n => performed done n == p.effects n) && legal p (done ++ [x]) rest

theorem History.of_legal [DecidableEq E] (hist : History p h₁) (hlegal : legal p h₁ h₂ = true) :
    History p (h₁ ++ h₂) := by
  induction h₂ generalizing h₁ with
  | nil => rwa [append_nil]
  | cons x rest ih =>
    simp only [legal, Bool.and_eq_true, decide_eq_true_eq, isPrefixOf_iff_prefix,
      all_eq_true, beq_iff_eq] at hlegal
    obtain ⟨⟨⟨job, tail, hnext⟩, ready⟩, hrest⟩ := hlegal
    have hstep : p.effects x.1 = performed h₁ x.1 ++ x.2 :: tail := by
      rw [← hnext, append_assoc, singleton_append]
    rw [append_cons]
    exact ih (History.step hist job hstep ready) hrest

theorem history_of_legal [DecidableEq E] (hlegal : legal p [] h = true) : History p h :=
  History.nil.of_legal hlegal

theorem History.performed_nil (hist : History p h) {j : J} (hj : j ∉ p.jobs) :
    performed h j = [] :=
  eq_nil_iff_forall_not_mem.mpr fun _ he => hj (hist.mem_jobs (mem_performed.mp he))

/-- Every effect stands somewhere in a complete run. -/
theorem Complete.split_at (hc : Complete p h) {j : J} (hj : j ∈ p.jobs) {e : E}
    (he : e ∈ p.effects j) : ∃ h₁ h₂, h = h₁ ++ (j, e) :: h₂ := by
  rw [← hc.2 j hj] at he
  exact append_of_mem (mem_performed.mp he)

end Schedule

end Twinet
