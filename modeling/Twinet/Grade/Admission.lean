import Mathlib.Algebra.Order.BigOperators.Group.List
import Mathlib.Algebra.Ring.Int.Defs
import Twinet.Grade.Concurrency
import Twinet.Lib.FirstFit
import Twinet.Lib.Machine

/-!
# The Admission Gate

The gate lets a grading run start when the nodes and the routers it needs have room for
it. Callers wait in a queue. Whenever something is released, the queue is gone through
once, and everyone who fits is admitted, also past those who do not.

A caller that is cancelled leaves the queue. If it was admitted just before, it releases
what it was given, but not before it has let go of the lock, and so others can come in
between. The model has a step of its own for that.

The gate only has counters. `Accounts` says what they stand for: what is left of every
budget is what the admitted callers do not take. Everything else is then said of the
list of those callers, and `dispatchOver_eq` makes the loop of the gate the general one.

## Main definitions

* `Admission.fitsLocked`, `Admission.dispatchLocked`: The loop of the gate.
* `gates`: The gate and its callers as a machine.
* `Accounts`: The counters are those of the admitted callers.
* `GateSound`: What is always true of a gate.

## Theorems

* `dispatchOver_eq`: The gate dispatches by first fit.
* `Within.admit`, `fitsBeside_nil`: What an admission keeps, and who can always be admitted.
* `Gated.step`: What every action keeps.
* `admission_gate_sound`: The gate is safe and never deadlocks.
-/

namespace Twinet

namespace Grade

open List FirstFit
open Prod (fst)

/-! ### The gate -/

/-- A caller. -/
structure Waiter where
  id : Nat
  asn : Nat
deriving DecidableEq, Repr

structure Admission where
  free : String → Int
  readers : String → Int
  limit : Int
  demand : Nat → Table String Int
  routers : Nat → List String
  waiters : List Waiter
  /-- The width an operator asked for, zero if none. -/
  fixed : Int
  slots : Int

/-- The routers that are read for a system. -/
def ConcurrencyPlan.routersOf (p : ConcurrencyPlan) (asn : Nat) : List String :=
  ((footprintOf p.footprints asn).map RunFootprint.routers).getD []

/-- The gate that enforces a plan. -/
def ConcurrencyPlan.admission (p : ConcurrencyPlan) : Admission :=
  { free := p.budget, readers := fun _ => 0, limit := p.deviceLimit, demand := p.demand
    routers := p.routersOf, waiters := [], fixed := 0, slots := 0 }

namespace Admission

variable (a : Admission)

def fitsLocked (asn : Nat) : Bool :=
  if 0 < a.fixed then a.slots < a.fixed
  else ((a.demand asn).entries.all fun e => e.2 ≤ a.free e.1) &&
    (a.routers asn).all fun r => a.readers r < a.limit

def chargeLocked (asn : Nat) : Admission :=
  if 0 < a.fixed then { a with slots := a.slots + 1 }
  else
    { a with
      free := fun node => a.free node - ((a.demand asn).lookup node).getD 0
      readers := fun r => a.readers r + ((a.routers asn).count r : Int) }

/-- Go through a queue. Returned are those who are admitted and those who stay. -/
def dispatchOver : Admission → List Waiter → Admission × List Waiter × List Waiter
  | a, [] => (a, [], [])
  | a, w :: rest =>
    if a.fitsLocked w.asn then
      let (a', admitted, kept) := dispatchOver (a.chargeLocked w.asn) rest
      (a', admitted ++ [w], kept)
    else
      let (a', admitted, kept) := dispatchOver a rest
      (a', admitted, w :: kept)

def dispatchLocked : Admission × List Waiter :=
  let (a', admitted, kept) := a.dispatchOver a.waiters
  ({ a' with waiters := kept }, admitted)

/-- Give back what a system took. -/
def uncharge (asn : Nat) : Admission :=
  if 0 < a.fixed then { a with slots := a.slots - 1 }
  else
    { a with
      free := fun node => a.free node + ((a.demand asn).lookup node).getD 0
      readers := fun r => a.readers r - ((a.routers asn).count r : Int) }

def release (asn : Nat) : Admission × List Waiter := (a.uncharge asn).dispatchLocked

end Admission

/-! ### Callers -/

/-- Where a caller is that has been admitted. -/
inductive Stage where
  /-- It has not noticed yet. -/
  | admitted
  | holding
  /-- It was cancelled and is about to release. -/
  | givingUp
deriving DecidableEq, Repr

structure GateState where
  gate : Admission
  /-- Those who have been admitted and have not released, the latest first. -/
  charged : List (Waiter × Stage)
  next : Nat

open GateState

inductive GateAction where
  | acquire (asn : Nat)
  /-- A caller notices that it was admitted. -/
  | proceed (id : Nat)
  | cancel (id : Nat)
  | release (id : Nat)
deriving DecidableEq, Repr

def admittedNow (ws : List Waiter) : List (Waiter × Stage) := ws.map fun w => (w, .admitted)

/-- The stage of a caller that has not noticed that it was admitted. -/
def moveTo (stage : Stage) (id : Nat) (c : Waiter × Stage) : Waiter × Stage :=
  if c.1.id = id ∧ c.2 = .admitted then (c.1, stage) else c

/-- One action, with those who are admitted by it. -/
def gateStep (s : GateState) : GateAction → GateState × List Waiter
  | .acquire asn =>
    let queue := s.gate.waiters ++ [⟨s.next, asn⟩]
    let (gate, admitted) := { s.gate with waiters := queue }.dispatchLocked
    (⟨gate, admittedNow admitted ++ s.charged, s.next + 1⟩, admitted)
  | .proceed id => ({ s with charged := s.charged.map (moveTo .holding id) }, [])
  | .cancel id =>
    if s.gate.waiters.any (·.id = id) then
      ({ s with gate := { s.gate with waiters := s.gate.waiters.filter (·.id ≠ id) } }, [])
    else ({ s with charged := s.charged.map (moveTo .givingUp id) }, [])
  | .release id =>
    match takeOut (fun c => c.1.id = id && c.2 ≠ .admitted) s.charged with
    | none => (s, [])
    | some (c, others) =>
      let (gate, admitted) := s.gate.release c.1.asn
      ({ s with gate := gate, charged := admittedNow admitted ++ others }, admitted)

def gates : Machine GateState GateAction Waiter := ⟨gateStep⟩

/-- A gate that nobody has come to. -/
def GateState.init (p : ConcurrencyPlan) : GateState := ⟨p.admission, [], 0⟩

/-- Those who take up something. -/
def GateState.holders (s : GateState) : List Waiter := s.charged.map fst

/-! ### What fits -/

section Plan

variable (p : ConcurrencyPlan)

/-- The slots that callers take on a node. -/
def load (held : List Waiter) (node : String) : Int :=
  (held.map fun w => ((p.demand w.asn).lookup node).getD 0).sum

/-- How often callers read a router. -/
def reads (held : List Waiter) (router : String) : Int :=
  (held.map fun w => ((p.routersOf w.asn).count router : Int)).sum

/-- A caller fits beside others. -/
def fitsBeside (held : List Waiter) (w : Waiter) : Bool :=
  ((p.demand w.asn).entries.all fun e => e.2 ≤ p.budget e.1 - load p held e.1) &&
    (p.routersOf w.asn).all fun r => reads p held r < p.deviceLimit

/-- Callers keep to the budgets and to the readers that are allowed. -/
structure Within (held : List Waiter) : Prop where
  slots : ∀ node, load p held node ≤ p.budget node
  readers : ∀ router,
    (held.countP (fun w => router ∈ p.routersOf w.asn) : Int) ≤ p.deviceLimit

end Plan

variable {others : List Waiter}

section Fitting

variable {p : ConcurrencyPlan} {held : List Waiter} {w : Waiter}

theorem lookup_of_mem_entries {t : Table String Int} {e : Σ _ : String, Int} (h : e ∈ t.entries) :
    t.lookup e.1 = some e.2 :=
  AList.mem_lookup_iff.mpr h

theorem all_entries_iff (t : Table String Int) (room : String → Int) :
    (t.entries.all fun e => decide (e.2 ≤ room e.1)) = true ↔
      ∀ node need, t.lookup node = some need → need ≤ room node := by
  simp only [all_eq_true, decide_eq_true_eq]
  constructor
  · intro h node need hlook
    exact h ⟨node, need⟩ (AList.mem_lookup_iff.mp hlook)
  · intro h e he
    exact h e.1 e.2 (lookup_of_mem_entries he)

theorem fitsBeside_iff : fitsBeside p held w = true ↔
    (∀ node need, (p.demand w.asn).lookup node = some need →
      need ≤ p.budget node - load p held node) ∧
    ∀ r ∈ p.routersOf w.asn, reads p held r < p.deviceLimit := by
  rw [fitsBeside, Bool.and_eq_true,
    all_entries_iff (p.demand w.asn) fun node => p.budget node - load p held node]
  simp

theorem load_cons (held : List Waiter) (w : Waiter) (node : String) :
    load p (w :: held) node = ((p.demand w.asn).lookup node).getD 0 + load p held node := by
  rw [load, map_cons, sum_cons, load]

theorem reads_cons (held : List Waiter) (w : Waiter) (router : String) :
    reads p (w :: held) router =
      ((p.routersOf w.asn).count router : Int) + reads p held router := by
  rw [reads, map_cons, sum_cons, reads]

variable {held' : List Waiter}

theorem load_perm (h : held.Perm held') (node : String) : load p held node = load p held' node :=
  (h.map _).sum_eq

theorem reads_perm (h : held.Perm held') (router : String) :
    reads p held router = reads p held' router :=
  (h.map _).sum_eq

theorem countP_le_reads (held : List Waiter) (router : String) :
    (held.countP (fun w => router ∈ p.routersOf w.asn) : Int) ≤ reads p held router := by
  induction held with
  | nil => exact le_refl _
  | cons w held ih =>
    rw [reads_cons]
    by_cases hmem : router ∈ p.routersOf w.asn
    · rw [countP_cons_of_pos (by simpa using hmem)]
      have hcount := count_pos_iff.mpr hmem
      omega
    · rw [countP_cons_of_neg (by simpa using hmem)]
      omega

theorem reads_le_of_sublist (h : held.Sublist held') (router : String) :
    reads p held router ≤ reads p held' router := by
  refine (h.map _).sum_le_sum fun count hcount => ?_
  obtain ⟨w, -, rfl⟩ := mem_map.mp hcount
  exact Int.natCast_nonneg _

variable (hsane : Sane p)

include hsane

theorem need_nonneg (asn : Nat) (node : String) : 0 ≤ ((p.demand asn).lookup node).getD 0 := by
  cases hlook : (p.demand asn).lookup node with
  | none => exact le_refl _
  | some need => exact (hsane.demand asn node need hlook).1

theorem load_le_of_sublist (h : held.Sublist held') (node : String) :
    load p held node ≤ load p held' node := by
  refine (h.map _).sum_le_sum fun need hneed => ?_
  obtain ⟨w, -, rfl⟩ := mem_map.mp hneed
  exact need_nonneg hsane w.asn node

theorem fitsBeside_of_sublist (h : held.Sublist held') (hfits : fitsBeside p held' w = true) :
    fitsBeside p held w = true := by
  rw [fitsBeside_iff] at hfits ⊢
  refine ⟨fun node need hlook => ?_, fun r hr => ?_⟩
  · have hneed := hfits.1 node need hlook
    have hload := load_le_of_sublist hsane h node
    omega
  · exact lt_of_le_of_lt (reads_le_of_sublist h r) (hfits.2 r hr)

theorem fitsBeside_cons (held : List Waiter) (w v : Waiter) :
    fitsBeside p (v :: held) w = true → fitsBeside p held w = true :=
  fitsBeside_of_sublist hsane (sublist_cons_self v held)

/-- Everyone fits alone. -/
theorem fitsBeside_nil (w : Waiter) : fitsBeside p [] w = true := by
  rw [fitsBeside_iff]
  refine ⟨fun node need hlook => ?_, fun r _ => hsane.deviceLimit_pos⟩
  have hneed := (hsane.demand w.asn node need hlook).2
  simpa [load] using hneed

theorem within_nil : Within p [] :=
  ⟨fun node => by simpa [load] using hsane.budget_nonneg node,
    fun router => by simpa using hsane.deviceLimit_pos.le⟩

omit hsane in
/-- Who fits can be added within the budgets. -/
theorem Within.admit (h : Within p held) (hfits : fitsBeside p held w = true) :
    Within p (w :: held) := by
  rw [fitsBeside_iff] at hfits
  refine ⟨fun node => ?_, fun router => ?_⟩
  · have hslots := h.slots node
    rw [load_cons]
    cases hlook : (p.demand w.asn).lookup node with
    | none =>
      rw [Option.getD_none]
      omega
    | some need =>
      have hneed := hfits.1 node need hlook
      rw [Option.getD_some]
      omega
  · by_cases hmem : router ∈ p.routersOf w.asn
    · rw [countP_cons_of_pos (by simpa using hmem)]
      have hreads := hfits.2 router hmem
      have hcount := @countP_le_reads p held router
      omega
    · rw [countP_cons_of_neg (by simpa using hmem)]
      exact h.readers router

theorem Within.of_perm (h : Within p held) (hperm : held.Perm (w :: others)) : Within p others := by
  refine ⟨fun node => ?_, fun router => ?_⟩
  · have hslots := h.slots node
    rw [load_perm hperm] at hslots
    exact (load_le_of_sublist hsane (sublist_cons_self w others) node).trans hslots
  · have hreaders := h.readers router
    have hless : others.countP (fun w => decide (router ∈ p.routersOf w.asn)) ≤
        held.countP fun w => decide (router ∈ p.routersOf w.asn) := by
      rw [hperm.countP_eq]
      exact (sublist_cons_self w others).countP_le
    omega

end Fitting

/-! ### The counters -/

/-- The counters of a gate are those of the callers that were admitted. -/
structure Accounts (p : ConcurrencyPlan) (a : Admission) (held : List Waiter) : Prop where
  free : ∀ node, a.free node = p.budget node - load p held node
  readers : ∀ router, a.readers router = reads p held router
  limit : a.limit = p.deviceLimit
  demand : a.demand = p.demand
  routers : a.routers = p.routersOf
  planned : a.fixed = 0

variable {w : Waiter}

section Accounts

variable {p : ConcurrencyPlan} {a : Admission} {held : List Waiter}

section

variable (h : Accounts p a held)

include h

theorem Accounts.not_fixed : ¬ 0 < a.fixed := by
  rw [h.planned]
  decide

theorem Accounts.fitsLocked_eq (w : Waiter) : a.fitsLocked w.asn = fitsBeside p held w := by
  rw [Admission.fitsLocked, if_neg h.not_fixed, fitsBeside, h.demand, h.routers, h.limit]
  simp [h.free, h.readers]

theorem Accounts.charge (w : Waiter) : Accounts p (a.chargeLocked w.asn) (w :: held) := by
  rw [Admission.chargeLocked, if_neg h.not_fixed]
  refine { h with free := fun node => ?_, readers := fun router => ?_ }
  · simp only [h.free, h.demand, load_cons]
    omega
  · simp only [h.readers, h.routers, reads_cons]
    omega

theorem Accounts.waiters_uncharge (asn : Nat) : (a.uncharge asn).waiters = a.waiters := by
  rw [Admission.uncharge, if_neg h.not_fixed]

theorem Accounts.uncharge
    (hperm : held.Perm (w :: others)) : Accounts p (a.uncharge w.asn) others := by
  rw [Admission.uncharge, if_neg h.not_fixed]
  refine { h with free := fun node => ?_, readers := fun router => ?_ }
  · simp only [h.free, h.demand, load_perm hperm, load_cons]
    omega
  · simp only [h.readers, h.routers, reads_perm hperm, reads_cons]
    omega

/-- The loop over counters is first fit over callers. -/
theorem dispatchOver_eq (ws : List Waiter) :
    Accounts p (a.dispatchOver ws).1 ((sweep (fitsBeside p) held ws).1 ++ held) ∧
      (a.dispatchOver ws).2 = sweep (fitsBeside p) held ws := by
  induction ws generalizing a held with
  | nil => exact ⟨h, rfl⟩
  | cons w rest ih =>
    rw [Admission.dispatchOver, sweep, h.fitsLocked_eq w]
    by_cases hfits : fitsBeside p held w = true
    · rw [if_pos hfits, if_pos hfits]
      obtain ⟨haccounts, heq⟩ := ih (h.charge w)
      simp only [heq, append_assoc, singleton_append]
      exact ⟨haccounts, trivial⟩
    · rw [if_neg hfits, if_neg hfits]
      obtain ⟨haccounts, heq⟩ := ih h
      simp only [heq]
      exact ⟨haccounts, trivial⟩

theorem dispatchLocked_eq :
    Accounts p a.dispatchLocked.1 ((sweep (fitsBeside p) held a.waiters).1 ++ held) ∧
      a.dispatchLocked.2 = (sweep (fitsBeside p) held a.waiters).1 ∧
      a.dispatchLocked.1.waiters = (sweep (fitsBeside p) held a.waiters).2 := by
  obtain ⟨haccounts, hsweep⟩ := dispatchOver_eq h a.waiters
  rw [← hsweep] at haccounts ⊢
  exact ⟨{ haccounts with }, rfl, rfl⟩

end

end Accounts

/-! ### Actions -/

/-- What is true of a gate between its actions. -/
structure Gated (p : ConcurrencyPlan) (s : GateState) : Prop where
  accounts : Accounts p s.gate s.holders
  within : Within p s.holders
  queued : ∀ w ∈ s.gate.waiters, fitsBeside p s.holders w = false
  ids : ((s.gate.waiters ++ s.holders).map Waiter.id).Nodup
  bounded : ∀ w ∈ s.gate.waiters ++ s.holders, w.id < s.next

variable {c : Waiter × Stage} {others : List (Waiter × Stage)}

section Actions

variable {p : ConcurrencyPlan} {s : GateState}

theorem map_fst_admittedNow (ws : List Waiter) : (admittedNow ws).map fst = ws := by
  rw [admittedNow, map_map]
  exact map_id ws

theorem map_fst_moveTo (stage : Stage) (id : Nat) (charged : List (Waiter × Stage)) :
    (charged.map (moveTo stage id)).map fst = charged.map fst := by
  rw [map_map]
  refine map_congr_left fun c _ => ?_
  simp only [Function.comp_apply, moveTo]
  split_ifs
  · rfl
  · rfl

theorem present_perm (h : s.charged.Perm (c :: others)) :
    (s.gate.waiters ++ s.holders).Perm (c.1 :: (s.gate.waiters ++ others.map fst)) :=
  ((h.map fst).append_left _).trans perm_middle

theorem holders_dispatch {a : Admission} {charged : List (Waiter × Stage)}
    (haccounts : Accounts p a (charged.map fst)) (next : Nat) :
    holders ⟨a.dispatchLocked.1, admittedNow a.dispatchLocked.2 ++ charged, next⟩ =
        (sweep (fitsBeside p) (charged.map fst) a.waiters).1 ++
          charged.map fst ∧
      (a.dispatchLocked.1.waiters ++ holders
        ⟨a.dispatchLocked.1, admittedNow a.dispatchLocked.2 ++ charged, next⟩).Perm
          (a.waiters ++ charged.map fst) := by
  obtain ⟨-, hadmitted, hkept⟩ := dispatchLocked_eq haccounts
  have hperm := @FirstFit.sweep_perm _ (fitsBeside p) (charged.map fst) a.waiters
  rw [holders, map_append, map_fst_admittedNow, hadmitted, hkept, ← append_assoc]
  exact ⟨rfl, (perm_append_comm.trans hperm).append_right _⟩

theorem Gated.restage (h : Gated p s) (stage : Stage) (id : Nat) :
    Gated p { s with charged := s.charged.map (moveTo stage id) } := by
  have hholders : holders { s with charged := s.charged.map (moveTo stage id) } =
      s.holders := map_fst_moveTo stage id s.charged
  exact ⟨hholders ▸ h.accounts, hholders ▸ h.within, hholders ▸ h.queued, hholders ▸ h.ids,
    hholders ▸ h.bounded⟩

theorem Gated.leave (h : Gated p s) (id : Nat) :
    Gated p { s with gate := { s.gate with waiters := s.gate.waiters.filter (·.id ≠ id) } } := by
  have hsub : (s.gate.waiters.filter (·.id ≠ id) ++ s.holders).Sublist
      (s.gate.waiters ++ s.holders) := filter_sublist.append_right _
  exact ⟨{ h.accounts with }, h.within,
    fun w hw => h.queued w (mem_of_mem_filter hw), (hsub.map _).nodup h.ids,
    fun w hw => h.bounded w (hsub.subset hw)⟩

theorem Gated.released (h : Gated p s) (hperm : s.charged.Perm (c :: others)) :
    ∀ w ∈ (s.gate.release c.1.asn).1.waiters ++
      (admittedNow (s.gate.release c.1.asn).2 ++ others).map fst, w.id ≠ c.1.id := by
  have hids := ((present_perm hperm).map Waiter.id).nodup_iff.mp h.ids
  have hleft := (holders_dispatch (h.accounts.uncharge (hperm.map fst)) s.next).2
  rw [h.accounts.waiters_uncharge] at hleft
  intro w hw hid
  refine (nodup_cons.mp hids).1 ?_
  rw [← hid]
  exact mem_map_of_mem (hleft.subset hw)

theorem Gated.cancelled (h : Gated p s) (id : Nat) :
    (∀ w ∈ (gateStep s (.cancel id)).1.gate.waiters, w.id ≠ id) ∧
      ∀ c ∈ (gateStep s (.cancel id)).1.charged, c.1.id = id → c.2 ≠ .admitted := by
  rw [gateStep]
  by_cases hqueued : s.gate.waiters.any (·.id = id) = true
  · rw [if_pos hqueued]
    refine ⟨fun w hw => of_decide_eq_true (mem_filter.mp hw).2, fun c hc hid => ?_⟩
    -- a caller that waits has not been admitted
    obtain ⟨w, hw, hwid⟩ := any_eq_true.mp hqueued
    have hids := h.ids
    rw [map_append, nodup_append] at hids
    exact absurd ((of_decide_eq_true hwid).trans hid.symm)
      (hids.2.2 _ (mem_map_of_mem hw) _
        (mem_map_of_mem (mem_map_of_mem hc)))
  · rw [if_neg hqueued]
    refine ⟨fun w hw hid => hqueued (any_eq_true.mpr ⟨w, hw, decide_eq_true hid⟩), ?_⟩
    intro c hc hid
    obtain ⟨d, hd, rfl⟩ := mem_map.mp hc
    unfold moveTo at hid ⊢
    split_ifs at hid ⊢ with hadmitted
    · exact Stage.noConfusion
    · exact fun heq => hadmitted ⟨hid, heq⟩

variable (hsane : Sane p)

include hsane

theorem Gated.dispatch {a : Admission} {charged : List (Waiter × Stage)}
    {next : Nat} (haccounts : Accounts p a (charged.map fst))
    (hwithin : Within p (charged.map fst))
    (hids : ((a.waiters ++ charged.map fst).map Waiter.id).Nodup)
    (hbounded : ∀ w ∈ a.waiters ++ charged.map fst, w.id < next) :
    Gated p ⟨a.dispatchLocked.1, admittedNow a.dispatchLocked.2 ++ charged, next⟩ ∧
      (a.dispatchLocked.2 ++ a.dispatchLocked.1.waiters).Perm a.waiters := by
  obtain ⟨hcounters, hadmitted, hkept⟩ := dispatchLocked_eq haccounts
  obtain ⟨hholders, hall⟩ := holders_dispatch haccounts next
  refine ⟨⟨?_, ?_, ?_, (hall.map _).nodup_iff.mpr hids, fun w hw => hbounded w (hall.subset hw)⟩,
    ?_⟩
  · rw [hholders]
    exact hcounters
  · rw [hholders]
    exact sweep_induction (fun held w h hfits => h.admit hfits) a.waiters hwithin
  · rw [hholders, show (GateState.mk a.dispatchLocked.1 (admittedNow a.dispatchLocked.2 ++ charged)
      next).gate.waiters = _ from hkept]
    exact sweep_kept (fitsBeside_cons hsane) _ a.waiters
  · rw [hadmitted, hkept]
    exact sweep_perm _ _

theorem Gated.init : Gated p (init p) where
  accounts := ⟨fun node => by simp [GateState.init, ConcurrencyPlan.admission, GateState.holders,
    load], fun _ => rfl, rfl, rfl, rfl, rfl⟩
  within := within_nil hsane
  queued := nofun
  ids := nodup_nil
  bounded := nofun

variable (h : Gated p s)

include h

theorem Gated.acquire (asn : Nat) :
    Gated p (gateStep s (.acquire asn)).1 ∧
      ((gateStep s (.acquire asn)).2 ++ (gateStep s (.acquire asn)).1.gate.waiters).Perm
        (s.gate.waiters ++ [⟨s.next, asn⟩]) := by
  have hnew : ∀ w ∈ s.gate.waiters ++ s.holders, w.id ≠ s.next :=
    fun w hw => ne_of_lt (h.bounded w hw)
  have hmoved : (s.gate.waiters ++ [Waiter.mk s.next asn] ++ s.holders).Perm
      (Waiter.mk s.next asn :: (s.gate.waiters ++ s.holders)) := by
    rw [append_assoc]
    exact perm_middle
  refine @Gated.dispatch p hsane { s.gate with waiters := s.gate.waiters ++ [⟨s.next, asn⟩] }
    s.charged (s.next + 1) { h.accounts with } h.within ?_ ?_
  · refine (hmoved.map Waiter.id).nodup_iff.mpr ?_
    rw [map_cons, nodup_cons]
    refine ⟨fun hmem => ?_, h.ids⟩
    obtain ⟨w, hw, hid⟩ := mem_map.mp hmem
    exact hnew w hw hid
  · intro w hw
    rcases mem_cons.mp (hmoved.subset hw) with rfl | hw
    · exact Nat.lt_succ_self _
    · exact Nat.lt_succ_of_lt (h.bounded w hw)

theorem Gated.release (hperm : s.charged.Perm (c :: others)) :
    Gated p ⟨(s.gate.release c.1.asn).1,
        admittedNow (s.gate.release c.1.asn).2 ++ others, s.next⟩ ∧
      ((s.gate.release c.1.asn).2 ++ (s.gate.release c.1.asn).1.waiters).Perm s.gate.waiters := by
  have hholders : s.holders.Perm (c.1 :: others.map fst) := hperm.map fst
  have haccounts := h.accounts.uncharge hholders
  have hwaiters := h.accounts.waiters_uncharge c.1.asn
  have hall := present_perm hperm
  have hids := (hall.map Waiter.id).nodup_iff.mp h.ids
  refine (Gated.dispatch hsane haccounts (h.within.of_perm hsane hholders) ?_ ?_).imp_right ?_
  · rw [hwaiters]
    exact (nodup_cons.mp hids).2
  · rw [hwaiters]
    exact fun w hw => h.bounded w (hall.symm.subset (mem_cons_of_mem _ hw))
  · intro hqueue
    rw [hwaiters] at hqueue
    exact hqueue

/-- Every action keeps the gate in order. -/
theorem Gated.step (a : GateAction) : Gated p (gateStep s a).1 := by
  cases a with
  | acquire asn => exact (h.acquire hsane asn).1
  | proceed id => exact h.restage .holding id
  | cancel id =>
    rw [gateStep]
    split_ifs
    · exact h.leave id
    · exact h.restage .givingUp id
  | release id =>
    rw [gateStep]
    cases htake : takeOut (fun c => c.1.id = id && c.2 ≠ .admitted) s.charged with
    | none => exact h
    | some found =>
      obtain ⟨c, others⟩ := found
      exact (h.release hsane (takeOut_spec htake).2.1).1

theorem Gated.waiters_eq_nil (hnone : s.charged = []) :
    s.gate.waiters = [] := by
  rw [eq_nil_iff_forall_not_mem]
  intro w hw
  have hfits := h.queued w hw
  rw [holders, hnone, map_nil, fitsBeside_nil hsane w] at hfits
  cases hfits

/-! ### Waiting -/

theorem Gated.waits (hw : w ∈ s.gate.waiters) {a : GateAction}
    (ha : a ≠ .cancel w.id) : w ∈ (gateStep s a).1.gate.waiters ∨ w ∈ (gateStep s a).2 := by
  cases a with
  | acquire asn =>
    have hmem := (h.acquire hsane asn).2.symm.subset (mem_append_left [⟨s.next, asn⟩] hw)
    exact (mem_append.mp hmem).symm
  | proceed id => exact .inl hw
  | cancel id =>
    have hne : w.id ≠ id := fun heq => ha (by rw [heq])
    rw [gateStep]
    split_ifs
    · exact .inl (mem_filter.mpr ⟨hw, decide_eq_true hne⟩)
    · exact .inl hw
  | release id =>
    rw [gateStep]
    cases htake : takeOut (fun c => c.1.id = id && c.2 ≠ .admitted) s.charged with
    | none => exact .inl hw
    | some found =>
      obtain ⟨c, others⟩ := found
      have hmem := (h.release hsane (takeOut_spec htake).2.1).2.symm.subset hw
      exact (mem_append.mp hmem).symm

theorem Gated.admitted (hw : w ∈ s.gate.waiters)
    {more : List GateAction} (hmore : .cancel w.id ∉ more)
    (hend : (gates.run s more).charged = []) : w ∈ gates.trace s more := by
  induction more generalizing s with
  | nil =>
    rw [h.waiters_eq_nil hsane hend] at hw
    cases hw
  | cons a more ih =>
    have ha : a ≠ .cancel w.id := fun heq => hmore (heq ▸ mem_cons_self)
    rw [Machine.trace, mem_append]
    rcases h.waits hsane hw ha with hwaits | hadmitted
    · exact .inr (ih (h.step hsane a) hwaits
        (fun hmem => hmore (mem_cons_of_mem a hmem)) hend)
    · exact .inl hadmitted

/-- How many have come and not gone. -/
def GateState.present (s : GateState) : Nat := s.gate.waiters.length + s.charged.length

theorem Gated.present_release (hc : c ∈ s.charged) :
    (gates.run s [.proceed c.1.id, .release c.1.id]).present + 1 = s.present := by
  have hstage : (moveTo .holding c.1.id c).2 ≠ .admitted := by
    unfold moveTo
    split_ifs with hadmitted
    · exact Stage.noConfusion
    · exact fun heq => hadmitted ⟨rfl, heq⟩
  have hid : (moveTo .holding c.1.id c).1 = c.1 := by
    unfold moveTo
    split_ifs
    · rfl
    · rfl
  have hmem : moveTo .holding c.1.id c ∈ s.charged.map (moveTo .holding c.1.id) :=
    mem_map_of_mem hc
  simp only [Machine.run, gates, gateStep]
  cases htake : takeOut (fun d => d.1.id = c.1.id && d.2 ≠ .admitted)
      (s.charged.map (moveTo .holding c.1.id)) with
  | none =>
    -- the caller is there to be taken out
    have hnot := takeOut_eq_none_iff.mp htake _ hmem
    rw [hid] at hnot
    simp [hstage] at hnot
  | some found =>
    obtain ⟨d, others⟩ := found
    have hperm := (takeOut_spec htake).2.1
    -- whoever the release admits moves from the queue, no one is lost
    obtain ⟨-, hqueue⟩ := (h.restage .holding c.1.id).release hsane hperm
    have hcharged := hperm.length_eq
    have hwaiters := hqueue.length_eq
    simp only [length_map, length_cons, length_append] at hcharged hwaiters
    simp only [present, admittedNow, length_append, length_map]
    omega

theorem Gated.drains {n : Nat} (hn : s.present ≤ n) :
    ∃ more : List GateAction, (∀ a ∈ more, ∃ id, a = .proceed id ∨ a = .release id) ∧
      (gates.run s more).charged = [] ∧ (gates.run s more).gate.waiters = [] := by
  induction n generalizing s with
  | zero =>
    unfold present at hn
    have hcharged : s.charged = [] := length_eq_zero_iff.mp (by omega)
    exact ⟨[], nofun, hcharged,
      h.waiters_eq_nil hsane hcharged⟩
  | succ n ih =>
    cases hcharged : s.charged with
    | nil =>
      exact ⟨[], nofun, hcharged,
        h.waiters_eq_nil hsane hcharged⟩
    | cons c rest =>
      have hc : c ∈ s.charged := by rw [hcharged]; exact mem_cons_self
      -- the first that holds a place lets go of it
      have hless := h.present_release hsane hc
      have hnext : Gated p (gates.run s [.proceed c.1.id, .release c.1.id]) :=
        (h.step hsane _).step hsane _
      obtain ⟨more, honly, hempty⟩ := ih hnext (by omega)
      refine ⟨[.proceed c.1.id, .release c.1.id] ++ more, ?_, ?_⟩
      · intro a ha
        rcases mem_append.mp ha with ha | ha
        · rcases mem_cons.mp ha with rfl | ha
          · exact ⟨c.1.id, .inl rfl⟩
          · exact ⟨c.1.id, .inr (mem_singleton.mp ha)⟩
        · exact honly a ha
      · rw [Machine.run_append]
        exact hempty

/-! ### Cancellation -/

theorem Gated.gone (id : Nat) :
    ∀ w ∈ (gates.run s [.cancel id, .release id]).gate.waiters ++
      (gates.run s [.cancel id, .release id]).holders, w.id ≠ id := by
  obtain ⟨hqueue, hcharged⟩ := h.cancelled id
  have hnext := h.step hsane (.cancel id)
  change ∀ w ∈ (gateStep (gateStep s (.cancel id)).1 (.release id)).1.gate.waiters ++
    (gateStep (gateStep s (.cancel id)).1 (.release id)).1.holders, w.id ≠ id
  generalize (gateStep s (.cancel id)).1 = s' at hqueue hcharged hnext ⊢
  rw [gateStep]
  cases htake : takeOut (fun c => c.1.id = id && c.2 ≠ .admitted) s'.charged with
  | none =>
    intro w hw hid
    rcases mem_append.mp hw with hw | hw
    · exact hqueue w hw hid
    · obtain ⟨c, hc, rfl⟩ := mem_map.mp hw
      have hnot := takeOut_eq_none_iff.mp htake c hc
      simp [hid, hcharged c hc hid] at hnot
  | some found =>
    obtain ⟨c, others⟩ := found
    obtain ⟨hfound, hperm, -⟩ := takeOut_spec htake
    have hid : c.1.id = id := of_decide_eq_true (Bool.and_eq_true_iff.mp hfound).1
    rw [← hid]
    exact hnext.released hperm

end Actions

/-! ### The gate is sound -/

/-- What is always true of a gate. -/
structure GateSound (p : ConcurrencyPlan) (s : GateState) : Prop where
  slots : ∀ node, load p s.holders node ≤ p.budget node
  readers : ∀ router,
    (s.holders.countP (fun w => router ∈ p.routersOf w.asn) : Int) ≤ p.deviceLimit
  /-- What is free is what nobody holds. -/
  free : ∀ node, s.gate.free node = p.budget node - load p s.holders node
  /-- A router is counted as read by those who hold it. -/
  counted : ∀ router, s.gate.readers router = reads p s.holders router
  queued : ∀ w ∈ s.gate.waiters, s.gate.fitsLocked w.asn = false
  /-- A caller that is cancelled is gone, once it has released what it may have been given. -/
  cancelled : ∀ id, ∀ w ∈ (gates.run s [.cancel id, .release id]).gate.waiters ++
    (gates.run s [.cancel id, .release id]).holders, w.id ≠ id
  /-- Nobody waits for nothing. -/
  live : s.gate.waiters ≠ [] → s.holders ≠ []
  /-- Those who have been admitted can empty the gate by going on. -/
  drains : ∃ more : List GateAction, (∀ a ∈ more, ∃ id, a = .proceed id ∨ a = .release id) ∧
    (gates.run s more).charged = [] ∧ (gates.run s more).gate.waiters = []
  /-- Whoever waits has been admitted when nobody holds anything. -/
  admitted : ∀ w ∈ s.gate.waiters, ∀ more : List GateAction, .cancel w.id ∉ more →
    (gates.run s more).charged = [] → w ∈ gates.trace s more

variable {p : ConcurrencyPlan}

theorem Gated.sound {s : GateState} (hsane : Sane p) (h : Gated p s) :
    GateSound p s where
  slots := h.within.slots
  readers := h.within.readers
  free := h.accounts.free
  counted := h.accounts.readers
  queued := fun w hw => (h.accounts.fitsLocked_eq w).trans (h.queued w hw)
  cancelled := h.gone hsane
  live := fun hwaits hnone =>
    hwaits (h.waiters_eq_nil hsane (map_eq_nil_iff.mp hnone))
  drains := h.drains hsane (le_refl _)
  admitted := fun _ hw _ hmore hend => h.admitted hsane hw hmore hend

theorem gated_run (hsane : Sane p) (acts : List GateAction) :
    Gated p (gates.run (init p) acts) :=
  gates.invariant_run (Gated p) (fun _ a h => h.step hsane a) _ acts (Gated.init hsane)

/-- The gate of every plan keeps to the budgets of the nodes and to the readers of the
    routers, lets nobody wait who fits, loses nothing by cancellation and never
    deadlocks, whatever its callers do in whatever order. -/
theorem admission_gate_sound (req : ConcurrencyRequest) (acts : List GateAction) :
    GateSound (planConcurrency req)
      (gates.run (init (planConcurrency req)) acts) :=
  (gated_run (sane_planConcurrency req) acts).sound (sane_planConcurrency req)

end Grade

end Twinet
