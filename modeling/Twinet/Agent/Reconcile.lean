import Mathlib.Data.Prod.Lex
import Mathlib.Order.Fin.Basic
import Mathlib.Data.List.Basic
import Mathlib.Tactic.IntervalCases
import Twinet.Lib.Fairness

/-!
# The Repair Queue

An agent is told when something happens to a container, and queues the device to
be looked at. Four workers take requests off the queue, look at the devices a
request is for and repair the broken ones. A flag keeps a device from being
queued twice; the worker clears it when it has returned from the repair.

So the flag also turns away what happens while a device is being repaired, after
it was looked at. A caller sets the flag before it knows whether it will get to
queue anything, and a worker that finds the lab held returns without looking.

## Main definitions

* `step`: One step of a call, a worker or the environment.
* `ReconcileTurn`: All that one step can do.
* `Orderly`: The condition on a run.
* `Due`: Some look at the device is still to come.

## Theorems

* `pending_owned`: The flag of a device is set on behalf of a request.
* `idle_again`: A worker becomes idle again and again.
* `due_observed`: A request that is due comes to be looked at.
* `accepted_event_observed`: In an orderly run no event is lost.
-/

namespace Twinet

namespace Agent

open List Option Function Prod

structure ReconcileRequest where
  lab : String
  device : String
deriving DecidableEq, Repr

structure WatchedDevice where
  id : String
  container : String
  node : String
deriving DecidableEq, Repr

/-- What a worker finds out about a lab. -/
structure ReconcileEnv where
  suppressed : String → Bool
  top : String → Option (List WatchedDevice)
  held : String → Bool
  leased : String → Bool
  exempt : String → String → Bool

/-- What a worker is doing. -/
inductive RepairPhase where
  | idle
  /-- The request is off the queue. -/
  | taken (r : ReconcileRequest)
  /-- The first devices have been looked at, and some were broken. -/
  | survey (r : ReconcileRequest) (rest broken : List WatchedDevice)
  | repair (r : ReconcileRequest) (broken : List WatchedDevice)
  /-- The flag is still set. -/
  | returned (r : ReconcileRequest)
deriving DecidableEq, Repr

open RepairPhase

def RepairPhase.request : RepairPhase → Option ReconcileRequest
  | .idle => none
  | .taken r | .survey r _ _ | .repair r _ | .returned r => some r

def reconcileQueueSize : Nat := 1024

abbrev Worker := Fin 4

/-- The flags, the calls that have set one and not got further, the queue and
    the workers. -/
structure ReconcileState where
  env : ReconcileEnv
  pending : String → Bool
  calls : List ReconcileRequest
  /-- The calls that could not queue and have not cleared their flag. -/
  gaveUp : List ReconcileRequest
  queue : List ReconcileRequest
  phase : Worker → RepairPhase

open ReconcileState

inductive ReconcileAction where
  /-- Something happened, or a delay is over. -/
  | arrive (r : ReconcileRequest)
  /-- A call tries to queue; its caller may be gone by then. -/
  | send (r : ReconcileRequest) (cancelled : Bool)
  | giveUp (r : ReconcileRequest)
  /-- A worker makes its next step, in which the device it looks at is healthy
      or the repair may start. -/
  | work (w : Worker) (good : Bool)
  | environment (env : ReconcileEnv)

def repairKey (r : ReconcileRequest) : String := r.lab ++ "|" ++ r.device

section Step

variable (node : String)

/-- The devices a worker looks at: none where the lab is not to be touched. -/
def reconcileDevices (env : ReconcileEnv) (r : ReconcileRequest) : List WatchedDevice :=
  if env.suppressed r.lab then []
  else
    match env.top r.lab with
    | none => []
    | some devices =>
      if env.held r.lab then []
      else if env.leased r.lab then []
      else devices.filter fun d =>
        d.node = node && (r.device = "" || r.device = d.id || r.device = d.container)

def ReconcileState.start (env : ReconcileEnv) : ReconcileState :=
  { env := env, pending := fun _ => false, calls := [], gaveUp := [], queue := []
    phase := fun _ => .idle }

variable (s : ReconcileState)

def ReconcileState.setPhase (w : Worker) (p : RepairPhase) : ReconcileState :=
  { s with phase := update s.phase w p }

def ReconcileState.clear (r : ReconcileRequest) : ReconcileState :=
  { s with pending := update s.pending (repairKey r) false }

/-- A call that is not turned away sets the flag. -/
def queueReconcile (r : ReconcileRequest) : ReconcileState :=
  if r.lab = "" || s.env.suppressed r.lab then s
  else if s.pending (repairKey r) then s
  else
    { s with
      pending := update s.pending (repairKey r) true
      calls := r :: s.calls }

/-- The call then queues, if the caller is still there and there is room. -/
def trySend (r : ReconcileRequest) (cancelled : Bool) : ReconcileState :=
  let s := { s with calls := s.calls.erase r }
  if !cancelled && s.queue.length < reconcileQueueSize then { s with queue := s.queue ++ [r] }
  else { s with gaveUp := r :: s.gaveUp }

/-- What a worker that took a request does first. -/
def beginTarget (env : ReconcileEnv) (r : ReconcileRequest) : RepairPhase :=
  match reconcileDevices node env r with
  | [] => .returned r
  | d :: rest => .survey r (d :: rest) []

/-- The next step of a worker. An exempt device is not looked at. -/
def work (w : Worker) (good : Bool) : Option ReconcileState :=
  match s.phase w with
  | .idle =>
    match s.queue with
    | [] => none
    | r :: queue => some ({ s with queue := queue }.setPhase w (.taken r))
  | .taken r => some (s.setPhase w (beginTarget node s.env r))
  | .survey r [] broken =>
    some (s.setPhase w (if broken = [] || !good then .returned r else .repair r broken))
  | .survey r (d :: rest) broken =>
    some (s.setPhase w
      (.survey r rest (if s.env.exempt r.lab d.id || good then broken else broken ++ [d])))
  | .repair r _ => some (s.setPhase w (.returned r))
  | .returned r => some ((s.clear r).setPhase w .idle)

/-- One step of a call, a worker or the environment. -/
def step : ReconcileAction → Option ReconcileState
  | .arrive r => some (queueReconcile s r)
  | .send r cancelled => if r ∈ s.calls then some (trySend s r cancelled) else none
  | .giveUp r =>
    if r ∈ s.gaveUp then some ({ s with gaveUp := s.gaveUp.erase r }.clear r) else none
  | .work w good => work node s w good
  | .environment env => some { s with env := env }

end Step

/-! ### What one step does -/

section StepLemmas

variable {node : String} {s s' : ReconcileState} {a : ReconcileAction} {w : Worker} {good : Bool}
  {r : ReconcileRequest}

/-- A worker's own steps. -/
def Mine (w : Worker) (a : ReconcileAction) : Prop := ∃ good, a = .work w good

/-- The attempts of a call to queue. -/
def Sends (r : ReconcileRequest) (a : ReconcileAction) : Prop := ∃ cancelled, a = .send r cancelled

theorem setPhase_phase_self (s : ReconcileState) (w : Worker) (p : RepairPhase) :
    (s.setPhase w p).phase w = p := by
  simp [setPhase]

theorem setPhase_phase_of_ne {v : Worker} (h : w ≠ v) (p : RepairPhase) :
    (s.setPhase v p).phase w = s.phase w := update_of_ne h _ _

/-- How far a worker is from being idle. -/
def RepairPhase.rank : RepairPhase → Nat ×ₗ Nat
  | .idle => toLex (0, 0)
  | .taken _ => toLex (4, 0)
  | .survey _ rest _ => toLex (3, rest.length)
  | .repair _ _ => toLex (2, 0)
  | .returned _ => toLex (1, 0)

/-- All that one step can do. -/
inductive ReconcileTurn (s : ReconcileState) : ReconcileAction → ReconcileState → Prop
  | dropped (r : ReconcileRequest) : ReconcileTurn s (.arrive r) s
  | called (r : ReconcileRequest) : ReconcileTurn s (.arrive r)
      { s with pending := update s.pending (repairKey r) true, calls := r :: s.calls }
  | queued (r : ReconcileRequest) (cancelled : Bool) : r ∈ s.calls →
      ReconcileTurn s (.send r cancelled)
        { s with calls := s.calls.erase r, queue := s.queue ++ [r] }
  | refused (r : ReconcileRequest) (cancelled : Bool) : r ∈ s.calls →
      (cancelled = false → ¬ s.queue.length < reconcileQueueSize) →
      ReconcileTurn s (.send r cancelled)
        { s with calls := s.calls.erase r, gaveUp := r :: s.gaveUp }
  | gaveUp (r : ReconcileRequest) :
      ReconcileTurn s (.giveUp r) ({ s with gaveUp := s.gaveUp.erase r }.clear r)
  | taken (w : Worker) (good : Bool) (r : ReconcileRequest) (queue : List ReconcileRequest) :
      s.phase w = .idle → s.queue = r :: queue →
      ReconcileTurn s (.work w good) ({ s with queue := queue }.setPhase w (.taken r))
  | freed (w : Worker) (good : Bool) (r : ReconcileRequest) : s.phase w = .returned r →
      ReconcileTurn s (.work w good) ((s.clear r).setPhase w .idle)
  | worked (w : Worker) (good : Bool) (r : ReconcileRequest) (p : RepairPhase) :
      (s.phase w).request = some r → p.request = some r → p.rank < (s.phase w).rank →
      ReconcileTurn s (.work w good) (s.setPhase w p)
  | changed (env : ReconcileEnv) : ReconcileTurn s (.environment env) { s with env := env }

theorem reconcileTurn_of_work (h : work node s w good = some s') :
    ReconcileTurn s (.work w good) s' := by
  revert h
  fun_cases work node s w good with
  | case1 => nofun
  | case2 hp r queue hq =>
    rintro ⟨⟩
    exact .taken w good r queue hp hq
  | case3 r hp =>
    rintro ⟨⟩
    refine .worked w good r _ (by rw [hp]; rfl) ?_ ?_
    · unfold beginTarget
      split <;> rfl
    · unfold beginTarget
      split <;> simp [hp, rank, Lex.toLex_lt_toLex]
  | case4 r broken hp =>
    rintro ⟨⟩
    refine .worked w good r _ (by rw [hp]; rfl) ?_ ?_
    · split_ifs <;> rfl
    · split_ifs <;> simp [hp, rank, Lex.toLex_lt_toLex]
  | case5 r d rest broken hp | case6 r broken hp =>
    rintro ⟨⟩
    refine .worked w good r _ (by rw [hp]; rfl) rfl ?_
    simp [hp, rank, Lex.toLex_lt_toLex]
  | case7 r hp =>
    rintro ⟨⟩
    exact .freed w good r hp

theorem reconcileTurn_of_step (h : step node s a = some s') : ReconcileTurn s a s' := by
  cases a with
  | arrive r =>
    obtain rfl := some.inj h
    unfold queueReconcile
    split_ifs
    · exact .dropped r
    · exact .dropped r
    · exact .called r
  | send r cancelled =>
    simp only [step, ite_none_right_eq_some, some.injEq] at h
    obtain ⟨hr, rfl⟩ := h
    unfold trySend
    simp only
    split_ifs with hq
    · exact .queued r cancelled hr
    · refine .refused r cancelled hr ?_
      rintro rfl
      simpa using hq
  | giveUp r =>
    simp only [step, ite_none_right_eq_some, some.injEq] at h
    exact h.2 ▸ .gaveUp r
  | work w good => exact reconcileTurn_of_work h
  | environment env =>
    obtain rfl := some.inj h
    exact .changed env

section

variable (h : step node s a = some s')

include h

theorem step_phase (hmine : ¬ Mine w a) : s'.phase w = s.phase w := by
  cases reconcileTurn_of_step h with
  | taken v good | freed v good | worked v good =>
    exact setPhase_phase_of_ne (fun heq => hmine ⟨good, by rw [heq]⟩) _
  | _ => rfl

theorem step_calls (hr : r ∈ s.calls) (hsend : ¬ Sends r a) : r ∈ s'.calls := by
  cases reconcileTurn_of_step h with
  | called q => exact mem_cons_of_mem _ hr
  | queued q c | refused q c =>
    exact (mem_erase_of_ne fun heq => hsend ⟨c, by rw [heq]⟩).mpr hr
  | _ => exact hr

theorem step_queue :
    (∃ added, s'.queue = s.queue ++ added) ∨
      ∃ w r, Mine w a ∧ s.queue = r :: s'.queue ∧ s'.phase w = .taken r := by
  cases reconcileTurn_of_step h with
  | queued q => exact .inl ⟨[q], rfl⟩
  | taken v good q queue _ hq =>
    exact .inr ⟨v, q, ⟨good, rfl⟩, hq, setPhase_phase_self _ v _⟩
  | _ => exact .inl ⟨[], (append_nil _).symm⟩

theorem step_env : (∃ env, a = .environment env ∧ s'.env = env) ∨ s'.env = s.env := by
  cases reconcileTurn_of_step h with
  | changed env => exact .inl ⟨env, rfl, rfl⟩
  | _ => exact .inr rfl

end

end StepLemmas

/-! ### The flag -/

/-- A request is in the hands of a call, the queue or a worker. -/
def InHand (s : ReconcileState) (r : ReconcileRequest) : Prop :=
  r ∈ s.calls ∨ r ∈ s.gaveUp ∨ r ∈ s.queue ∨ ∃ w, (s.phase w).request = some r

variable {w : Worker}

section Flag

variable {node : String} {s s' : ReconcileState} {a : ReconcileAction} {r : ReconcileRequest}
  {p : RepairPhase}

theorem inHand_setPhase : InHand (s.setPhase w p) r ↔ r ∈ s.calls ∨ r ∈ s.gaveUp ∨ r ∈ s.queue ∨
    p.request = some r ∨ ∃ v ≠ w, (s.phase v).request = some r := by
  unfold InHand setPhase
  rw [exists_update_iff s.phase fun _ phase => phase.request = some r]

theorem inHand_iff (w : Worker) : InHand s r ↔ r ∈ s.calls ∨ r ∈ s.gaveUp ∨ r ∈ s.queue ∨
    (s.phase w).request = some r ∨ ∃ v ≠ w, (s.phase v).request = some r := by
  rw [← inHand_setPhase, setPhase, update_eq_self]

/-- What is in hand has arrived, and is given up only with its flag. -/
theorem step_inHand (h : step node s a = some s') :
    (InHand s' r → InHand s r ∨ a = .arrive r) ∧
      (InHand s r → InHand s' r ∨ s'.pending (repairKey r) = false) := by
  have hsame : (InHand s' r ↔ InHand s r) → (InHand s' r → InHand s r ∨ a = .arrive r) ∧
      (InHand s r → InHand s' r ∨ s'.pending (repairKey r) = false) := fun hiff =>
    ⟨fun hr => .inl (hiff.mp hr), fun hr => .inl (hiff.mpr hr)⟩
  cases reconcileTurn_of_step h with
  | dropped | changed => exact hsame Iff.rfl
  | called q =>
    refine ⟨?_, fun hr => .inl (hr.imp_left (mem_cons_of_mem _))⟩
    rintro (hr | hr)
    · rcases mem_cons.mp hr with rfl | hr
      · exact .inr rfl
      · exact .inl (.inl hr)
    · exact .inl (.inr hr)
  | queued q c hq | refused q c hq =>
    refine hsame ?_
    by_cases hrq : r = q
    · simp [InHand, hrq, hq]
    · simp [InHand, hrq, mem_erase_of_ne hrq]
  | gaveUp q =>
    -- the caller that gives up clears its flag
    refine ⟨fun hr => .inl (hr.imp_right (Or.imp_left mem_of_mem_erase)), fun hr => ?_⟩
    by_cases hrq : r = q
    · exact .inr (hrq ▸ update_self _ _ _)
    · exact .inl (hr.imp_right (Or.imp_left (mem_erase_of_ne hrq).mpr))
  | taken v good q queue hidle hq =>
    refine hsame ?_
    rw [inHand_setPhase, inHand_iff v, hidle, hq]
    by_cases hrq : r = q
    · simp [hrq, request]
    · simp [hrq, Ne.symm hrq, request]
  | freed v good q hret =>
    -- a worker clears the flag as it lets go of the request
    by_cases hrq : r = q
    · subst hrq
      exact ⟨fun _ => .inl (.inr (.inr (.inr ⟨v, by rw [hret]; rfl⟩))),
        fun _ => .inr (update_self _ _ _)⟩
    · refine hsame ?_
      rw [inHand_setPhase, inHand_iff v, hret]
      simp [request, clear, Ne.symm hrq]
  | worked v good q p hold hnew =>
    refine hsame ?_
    rw [inHand_setPhase, inHand_iff v, hold, hnew]

/-- Every flag that is set is set on behalf of a request. -/
def PendingOwned (s : ReconcileState) : Prop :=
  ∀ k, s.pending k = true → ∃ r, repairKey r = k ∧ InHand s r

section

variable (h : step node s a = some s')

include h

theorem step_pending {k : String} (hk : s'.pending k = true) :
    s.pending k = true ∨ ∃ r, repairKey r = k ∧ r ∈ s'.calls := by
  have hclear : ∀ (s : ReconcileState) (r : ReconcileRequest), (s.clear r).pending k = true →
      s.pending k = true := by
    intro s r hk
    by_cases hkr : k = repairKey r
    · subst hkr
      exact absurd hk (by simp [clear])
    · simpa [clear, update_of_ne hkr] using hk
  cases reconcileTurn_of_step h with
  | called q =>
    by_cases hkq : k = repairKey q
    · exact .inr ⟨q, hkq.symm, mem_cons_self⟩
    · have hold : update s.pending (repairKey q) true k = true := hk
      rw [update_of_ne hkq] at hold
      exact .inl hold
  | gaveUp q | freed _ _ q => exact .inl (hclear _ q hk)
  | _ => exact .inl hk

theorem step_pendingOwned (hs : PendingOwned s) : PendingOwned s' := by
  intro k hk
  rcases step_pending h hk with hold | ⟨r, hr, hcall⟩
  · obtain ⟨r, rfl, hr⟩ := hs k hold
    refine ⟨r, rfl, ((step_inHand h).2 hr).resolve_right fun hclear => ?_⟩
    rw [hclear] at hk
    exact Bool.false_ne_true hk
  · exact ⟨r, hr, .inl hcall⟩

end

end Flag

/-! ### Runs -/

section Runs

variable {node : String} (run : Run (step node))

/-- Every call and every worker gets on when it can. -/
structure Goroutines : Prop where
  calls : ∀ r, run.Fair (fun s => r ∈ s.calls) (Sends r)
  workers : ∀ w, run.Fair (fun s => s.phase w ≠ .idle ∨ s.queue ≠ []) (Mine w)

/-- A call came in for a lab that is not suppressed, while there was room in the
    queue. -/
def Accepted (r : ReconcileRequest) (n : Nat) : Prop :=
  run.act n = .arrive r ∧ r.lab ≠ "" ∧ (run.state n).env.suppressed r.lab = false ∧
    (run.state n).queue.length < reconcileQueueSize

/-- A worker starts to look at a device on behalf of a request. -/
def Observes (r : ReconcileRequest) (d : WatchedDevice) (n : Nat) : Prop :=
  ∃ w rest broken, Mine w (run.act n) ∧ (run.state n).phase w = .survey r (d :: rest) broken ∧
    (run.state n).env.exempt r.lab d.id = false

/-- A worker has a device of its request still to look at. -/
def ToLook (p : RepairPhase) (r : ReconcileRequest) (d : WatchedDevice) : Prop :=
  p = .taken r ∨ ∃ rest broken, p = .survey r rest broken ∧ d ∈ rest

/-- The condition on the steps of a run that concern a request and a device it is
    for. -/
structure Orderly (r : ReconcileRequest) (d : WatchedDevice) : Prop where
  /-- Nothing happens to the device between the look a worker has at it and the
      clearing of the flag. -/
  quiet : ∀ n w, run.act n = .arrive r → ((run.state n).phase w).request = some r →
    ToLook ((run.state n).phase w) r d
  /-- A call that set the flag queues. -/
  queues : ∀ n cancelled, run.act n = .send r cancelled →
    cancelled = false ∧ (run.state n).queue.length < reconcileQueueSize
  /-- A worker that took the request is not turned away from the device. -/
  begins : ∀ n w, Mine w (run.act n) → (run.state n).phase w = .taken r →
    d ∈ reconcileDevices node (run.state n).env r
  looks : ∀ n w rest broken, Mine w (run.act n) →
    (run.state n).phase w = .survey r (d :: rest) broken →
      (run.state n).env.exempt r.lab d.id = false
  /-- No other request has the same flag. -/
  flag : ∀ n r', run.act n = .arrive r' → repairKey r' = repairKey r → r' = r

end Runs

section Liveness

variable {node : String} {run : Run (step node)} {r : ReconcileRequest} {d : WatchedDevice}
  {env : ReconcileEnv}

/-- From a start without flags, every flag has its request. -/
theorem pending_owned (h0 : run.state 0 = .start env) (n : Nat) : PendingOwned (run.state n) := by
  refine run.always ?_ (fun n => step_pendingOwned (run.next n)) n
  rw [h0]
  intro k hk
  exact absurd hk (by simp [start])

theorem inHand_arrived (h0 : run.state 0 = .start env) (n : Nat)
    (hr : InHand (run.state n) r) : ∃ m < n, run.act m = .arrive r := by
  induction n with
  | zero =>
    rw [h0] at hr
    rcases hr with hr | hr | hr | ⟨w, hr⟩
    all_goals exact absurd hr (by simp [start, request])
  | succ n ih =>
    rcases (step_inHand (run.next n)).1 hr with hold | hnew
    · obtain ⟨m, hm, hact⟩ := ih hold
      exact ⟨m, by omega, hact⟩
    · exact ⟨n, Nat.lt_succ_self n, hnew⟩

/-- A worker comes to the end of what it took. -/
theorem idle_again (hgo : Goroutines run) (w : Worker) (n : Nat) :
    ∃ m ≥ n, (run.state m).phase w = .idle := by
  refine leads_of_rank (P := fun _ => True) (fun n => ((run.state n).phase w).rank) ?_ trivial
  intro n _
  by_cases hidle : (run.state n).phase w = .idle
  · exact .inl ⟨n, le_rfl, hidle⟩
  -- It is busy until it makes a step, and every step brings it nearer.
  obtain ⟨m, hm, hbusy, good, hact⟩ := (hgo.workers w).leads
    (P := fun s => s.phase w = (run.state n).phase w) (fun s hs => .inl (hs ▸ hidle))
    (fun s a s' hs hmine h => (step_phase h hmine).trans hs) rfl
  have hwork := run.next m
  rw [hact] at hwork
  generalize hnext : run.state (m + 1) = s' at hwork
  cases reconcileTurn_of_step hwork with
  | taken _ _ _ _ hno => exact absurd (hbusy.symm.trans hno) hidle
  | freed =>
    refine .inl ⟨m + 1, by omega, ?_⟩
    rw [hnext, setPhase_phase_self]
  | worked _ _ _ p _ _ hlt =>
    refine .inr ⟨m + 1, by omega, trivial, ?_⟩
    rw [hnext, setPhase_phase_self, ← hbusy]
    exact hlt

theorem work_of_idle {s s' : ReconcileState} {good : Bool} (h : work node s w good = some s')
    (hidle : s.phase w = .idle) : ∃ q, s.queue = q :: s'.queue ∧ s'.phase w = .taken q := by
  cases reconcileTurn_of_work h with
  | taken _ _ q _ _ hq => exact ⟨q, hq, setPhase_phase_self _ w _⟩
  | freed _ _ _ hno => nomatch hidle.symm.trans hno
  | worked _ _ _ _ hno => exact absurd hno (by simp [hidle, request])

variable {n : Nat}

theorem head_taken (hgo : Goroutines run) {P : Nat → Prop}
    (hstay : ∀ k, P k → (∀ w q, ¬ ((run.state k).queue = q :: (run.state (k + 1)).queue ∧
      (run.state (k + 1)).phase w = .taken q)) → P (k + 1))
    (hqueue : ∀ k, P k → (run.state k).queue ≠ []) (hn : P n) :
    ∃ k ≥ n, P k ∧ ∃ w q, (run.state k).queue = q :: (run.state (k + 1)).queue ∧
      (run.state (k + 1)).phase w = .taken q := by
  -- Wait until the first worker is idle, and then until it makes a step.
  obtain ⟨m, hm, hidle⟩ := idle_again hgo 0 n
  have hstay' : ∀ k, P k → (¬ ∃ w q, (run.state k).queue = q :: (run.state (k + 1)).queue ∧
      (run.state (k + 1)).phase w = .taken q) → P (k + 1) :=
    fun k hk hno => hstay k hk fun w q htaken => hno ⟨w, q, htaken⟩
  rcases holds_until hstay' hm hn with hP | hend
  swap
  · exact hend
  have htake : ∀ k, (run.state k).phase 0 = .idle → Mine 0 (run.act k) →
      ∃ w q, (run.state k).queue = q :: (run.state (k + 1)).queue ∧
        (run.state (k + 1)).phase w = .taken q := by
    rintro k hk ⟨good, hact⟩
    have hwork := run.next k
    rw [hact] at hwork
    exact ⟨0, work_of_idle hwork hk⟩
  obtain ⟨m', hm', hmove⟩ := hgo.workers 0 m (.inr (hqueue m hP))
  have hboth := holds_until (P := fun k => P k ∧ (run.state k).phase 0 = .idle)
    (E := fun k => ∃ w q, (run.state k).queue = q :: (run.state (k + 1)).queue ∧
      (run.state (k + 1)).phase w = .taken q)
    (fun k hk hno => ⟨hstay' k hk.1 hno,
      (step_phase (run.next k) fun hmine => hno (htake k hk.2 hmine)).trans hk.2⟩) hm' ⟨hP, hidle⟩
  rcases hboth with ⟨hP', hidle'⟩ | ⟨k, hk, ⟨hPk, -⟩, hend⟩
  · have hmine : Mine 0 (run.act m') :=
      hmove.resolve_right fun hne => hne (.inr (hqueue m' hP'))
    exact ⟨m', le_trans hm hm', hP', htake m' hidle' hmine⟩
  · exact ⟨k, le_trans hm hk, hPk, hend⟩

theorem queued_taken (hgo : Goroutines run) (hn : r ∈ (run.state n).queue) :
    ∃ m ≥ n, ∃ w, (run.state m).phase w = .taken r := by
  refine leads_of_rank (P := fun n => r ∈ (run.state n).queue)
    (fun n => (run.state n).queue.idxOf r) ?_ hn
  intro n hn
  -- Its place in the queue only changes when the head is taken.
  obtain ⟨k, hk, ⟨hmem, hidx⟩, w, q, hq, htaken⟩ := head_taken hgo
    (P := fun k => r ∈ (run.state k).queue ∧
      (run.state k).queue.idxOf r = (run.state n).queue.idxOf r)
    (fun k hk hno => by
      rcases step_queue (run.next k) with ⟨added, hadd⟩ | ⟨w, q, -, htaken⟩
      · rw [hadd, idxOf_append_of_mem hk.1]
        exact ⟨mem_append_left _ hk.1, hk.2⟩
      · exact absurd htaken (hno w q))
    (fun k hk hnil => by
      rw [hnil] at hk
      exact nomatch hk.1) ⟨hn, rfl⟩
  by_cases hqr : q = r
  · exact .inl ⟨k + 1, by omega, w, hqr ▸ htaken⟩
  · rw [hq] at hmem hidx
    refine .inr ⟨k + 1, by omega, (mem_cons.mp hmem).resolve_left (Ne.symm hqr), ?_⟩
    rw [idxOf_cons_ne _ hqr] at hidx
    omega

theorem toLook_observed (hgo : Goroutines run) (hord : Orderly run r d)
    (hn : ToLook ((run.state n).phase w) r d) : ∃ m ≥ n, Observes run r d m := by
  refine leads_of_rank (P := fun n => ToLook ((run.state n).phase w) r d)
    (fun n => ((run.state n).phase w).rank) ?_ hn
  intro n hn
  have hbusy : (run.state n).phase w ≠ .idle := by
    rintro hidle
    rw [hidle] at hn
    rcases hn with hn | ⟨_, _, hn, -⟩ <;> cases hn
  obtain ⟨m, hm, hsame, hmine⟩ := (hgo.workers w).leads
    (P := fun s => s.phase w = (run.state n).phase w) (fun s hs => .inl (hs ▸ hbusy))
    (fun s a s' hs hmine h => (step_phase h hmine).trans hs) rfl
  obtain ⟨good, hact⟩ := id hmine
  have hwork := run.next m
  rw [hact] at hwork
  rw [← hsame] at hn ⊢
  rcases hn with htaken | ⟨rest, broken, hsurvey, hd⟩
  · -- It is not turned away, and the device is among those it looks at.
    have hdev := hord.begins m w hmine htaken
    right
    refine ⟨m + 1, by omega, ?_⟩
    simp only [step, work, htaken, some.injEq] at hwork
    rw [← hwork, setPhase_phase_self, htaken]
    unfold beginTarget
    cases hds : reconcileDevices node (run.state m).env r with
    | nil =>
      rw [hds] at hdev
      nomatch hdev
    | cons x rest =>
      refine ⟨.inr ⟨x :: rest, [], rfl, hds ▸ hdev⟩, ?_⟩
      simp [rank, Lex.toLex_lt_toLex]
  · cases rest with
    | nil => nomatch hd
    | cons x rest =>
      by_cases hx : x = d
      · subst hx
        exact .inl ⟨m, hm, w, rest, broken, hmine, hsurvey,
          hord.looks m w rest broken hmine hsurvey⟩
      · right
        refine ⟨m + 1, by omega, ?_⟩
        simp only [step, work, hsurvey, some.injEq] at hwork
        rw [← hwork, setPhase_phase_self, hsurvey]
        refine ⟨.inr ⟨rest, _, rfl, (mem_cons.mp hd).resolve_left (Ne.symm hx)⟩, ?_⟩
        simp [rank, Lex.toLex_lt_toLex]

/-- Some look at the device on behalf of the request is still to come. -/
def Due (s : ReconcileState) (r : ReconcileRequest) (d : WatchedDevice) : Prop :=
  r ∈ s.calls ∨ r ∈ s.queue ∨ ∃ w, ToLook (s.phase w) r d

/-- What is due in an orderly run comes to be looked at. -/
theorem due_observed (hgo : Goroutines run) (hord : Orderly run r d)
    (hn : Due (run.state n) r d) : ∃ m ≥ n, Observes run r d m := by
  have hqueued : ∀ {n}, r ∈ (run.state n).queue → ∃ m ≥ n, Observes run r d m := by
    intro n hn
    obtain ⟨m, hm, w, htaken⟩ := queued_taken hgo hn
    obtain ⟨k, hk, hobs⟩ := toLook_observed hgo hord (.inl htaken)
    exact ⟨k, le_trans hm hk, hobs⟩
  rcases hn with hn | hn | ⟨w, hn⟩
  · obtain ⟨m, hm, hcall, cancelled, hact⟩ := (hgo.calls r).leads (P := fun s => r ∈ s.calls)
      (fun s hs => hs) (fun s a s' hs hsend h => step_calls h hs hsend) hn
    obtain ⟨rfl, hroom⟩ := hord.queues m cancelled hact
    have hstep := run.next m
    rw [hact] at hstep
    have hmem : r ∈ (run.state (m + 1)).queue := by
      generalize run.state (m + 1) = s' at hstep ⊢
      cases reconcileTurn_of_step hstep with
      | queued => exact mem_append_right _ (mem_singleton_self r)
      | refused _ _ _ hfull => exact absurd hroom (hfull rfl)
    obtain ⟨k, hk, hobs⟩ := hqueued hmem
    exact ⟨k, by omega, hobs⟩
  · exact hqueued hn
  · exact toLook_observed hgo hord hn

theorem not_gaveUp (h0 : run.state 0 = .start env) (hord : Orderly run r d)
    (n : Nat) : r ∉ (run.state n).gaveUp := by
  induction n with
  | zero => simp [h0, start]
  | succ n ih =>
    have hstep := run.next n
    generalize hnext : run.state (n + 1) = s' at hstep
    generalize hact : run.act n = a at hstep
    cases reconcileTurn_of_step hstep with
    | refused q c _ hfull =>
      rw [mem_cons, not_or]
      refine ⟨?_, ih⟩
      rintro rfl
      obtain ⟨rfl, hroom⟩ := hord.queues n c hact
      exact hfull rfl hroom
    | gaveUp q => exact fun hmem => ih (mem_of_mem_erase hmem)
    | _ => exact ih

end Liveness

/-- In a run whose steps are orderly for a request and a device it is for, every
    event that is accepted for the request is followed by a look at the device. -/
theorem accepted_event_observed (node : String) (env : ReconcileEnv) (run : Run (step node))
    (h0 : run.state 0 = .start env) (hgo : Goroutines run) (r : ReconcileRequest)
    (d : WatchedDevice) (hord : Orderly run r d) (n : Nat) (hacc : Accepted run r n) :
    ∃ m > n, Observes run r d m := by
  obtain ⟨hact, hlab, hsup, -⟩ := hacc
  have hstep := run.next n
  rw [hact] at hstep
  obtain heq : queueReconcile (run.state n) r = run.state (n + 1) := some.inj hstep
  have hdue : Due (run.state (n + 1)) r d := by
    cases hpend : (run.state n).pending (repairKey r) with
    | false =>
      left
      rw [← heq]
      simp [queueReconcile, hlab, hsup, hpend]
    | true =>
      -- The flag was set by this very request, which is still to be looked at.
      have hkeep : run.state (n + 1) = run.state n := by
        rw [← heq]
        simp [queueReconcile, hpend]
      obtain ⟨q, hkey, hq⟩ := pending_owned h0 n _ hpend
      obtain ⟨m, -, harr⟩ := inHand_arrived h0 n hq
      obtain rfl := hord.flag m q harr hkey
      rw [hkeep]
      rcases hq with hq | hq | hq | ⟨w, hq⟩
      · exact .inl hq
      · exact absurd hq (not_gaveUp h0 hord n)
      · exact .inr (.inl hq)
      · exact .inr (.inr ⟨w, hord.quiet n w hact hq⟩)
  obtain ⟨m, hm, hobs⟩ := due_observed hgo hord hdue
  exact ⟨m, hm, hobs⟩

/-! ### Two runs -/

/-- A router, and the request its events make. -/
def watchedRouter : WatchedDevice := { id := "as1/R1", container := "as1_R1", node := "node0" }

def routerEvent : ReconcileRequest := { lab := "cos461", device := "as1/R1" }

/-- Nobody else works on the lab. -/
def quietLab : ReconcileEnv :=
  { suppressed := fun _ => false, top := fun _ => some [watchedRouter], held := fun _ => false
    leased := fun _ => false, exempt := fun _ _ => false }

/-- The router dies, and a worker sees to it. -/
def oneEvent : List ReconcileAction :=
  [.arrive routerEvent, .send routerEvent false, .work 0 true, .work 0 true, .work 0 true,
    .work 0 true, .work 0 true]

/-- The router dies again after the worker has looked at it. -/
def eventDuringRepair : List ReconcileAction :=
  [.arrive routerEvent, .send routerEvent false, .work 0 true, .work 0 true, .work 0 true,
    .arrive routerEvent, .work 0 true, .work 0 true]

theorem quietLab_end {acts : List ReconcileAction}
    (hacts : ∀ a ∈ acts, ∀ env, a ≠ .environment env) :
    let s := Run.along (step "node0") (.start quietLab) acts (.environment quietLab) acts.length
    step "node0" s (.environment quietLab) = some s := by
  -- only an environment action changes the environment
  have henv : ∀ n, (Run.along (step "node0") (.start quietLab) acts (.environment quietLab) n).env =
      quietLab := by
    intro n
    induction n with
    | zero => rfl
    | succ n ih =>
      rw [Run.along]
      generalize Run.along (step "node0") (.start quietLab) acts (.environment quietLab) n = s
        at ih ⊢
      cases hstep : step "node0" s (acts.getD n (.environment quietLab)) with
      | none => exact ih
      | some s' =>
        rcases step_env hstep with ⟨env, hact, heq⟩ | heq
        · rw [getD_eq_getElem?_getD] at hact
          cases hget : acts[n]? with
          | none =>
            rw [hget] at hact
            rw [getD_some, heq]
            exact (ReconcileAction.environment.inj hact).symm
          | some a =>
            rw [hget] at hact
            exact absurd hact (hacts a (mem_of_getElem? hget) env)
        · rw [getD_some, heq, ih]
  intro s
  have hs : s.env = quietLab := henv _
  rw [step, ← hs]

def oneEventRun : Run (step "node0") :=
  Run.ofList (step "node0") (.start quietLab) oneEvent (.environment quietLab)
    (by decide +kernel) (quietLab_end (by simp [oneEvent]))

def eventDuringRepairRun : Run (step "node0") :=
  Run.ofList (step "node0") (.start quietLab) eventDuringRepair (.environment quietLab)
    (by decide +kernel) (quietLab_end (by simp [eventDuringRepair]))

theorem goroutines_ofList {acts : List ReconcileAction} {rest : ReconcileAction}
    {s : ReconcileState}
    {hacts : ∀ n < acts.length,
      (step "node0" (Run.along (step "node0") s acts rest n) (acts.getD n rest)).isSome}
    {hrest : step "node0" (Run.along (step "node0") s acts rest acts.length) rest =
      some (Run.along (step "node0") s acts rest acts.length)}
    (hcalls : (Run.along (step "node0") s acts rest acts.length).calls = [])
    (hidle : ∀ w, (Run.along (step "node0") s acts rest acts.length).phase w = .idle)
    (hqueue : (Run.along (step "node0") s acts rest acts.length).queue = []) :
    Goroutines (Run.ofList (step "node0") s acts rest hacts hrest) where
  calls := fun r => Run.fair_ofList (by simp [hcalls])
  workers := fun w => Run.fair_ofList (by simp [hidle, hqueue])

/-- The router is looked at after it died. -/
theorem router_event_observed : ∃ m > 0, Observes oneEventRun routerEvent watchedRouter m := by
  -- after the seven actions of the list nothing but the environment moves
  have hend : ∀ n, n < 7 ∨ oneEventRun.act n = .environment quietLab := fun n =>
    (lt_or_ge n 7).imp_right (getD_eq_default _ _)
  have hgo : Goroutines oneEventRun :=
    goroutines_ofList (by decide +kernel) (by decide +kernel) (by decide +kernel)
  refine accepted_event_observed "node0" quietLab oneEventRun rfl hgo routerEvent
    watchedRouter ⟨?_, ?_, ?_, ?_, ?_⟩ 0 ⟨rfl, by decide, rfl, by decide +kernel⟩
  · intro n w hact hreq
    rcases hend n with hn | hn
    · interval_cases n
      · cases hreq
      all_goals cases hact
    · cases hn.symm.trans hact
  · intro n cancelled hact
    rcases hend n with hn | hn
    · interval_cases n
      · cases hact
      · cases hact
        exact ⟨rfl, by decide +kernel⟩
      all_goals cases hact
    · cases hn.symm.trans hact
  · rintro n w ⟨good, hact⟩ -
    rcases hend n with hn | hn
    · interval_cases n
      all_goals try cases hact
      all_goals decide +kernel
    · cases hn.symm.trans hact
  · rintro n w rest broken ⟨good, hact⟩ -
    rcases hend n with hn | hn
    · interval_cases n
      all_goals try cases hact
      all_goals decide +kernel
    · cases hn.symm.trans hact
  · intro n r' hact _
    rcases hend n with hn | hn
    · interval_cases n
      all_goals cases hact
      rfl
    · cases hn.symm.trans hact

/-- What happens to the router while a worker that has looked at it is not done
    is accepted, and nothing looks at the router again. -/
theorem event_during_repair_lost :
    Goroutines eventDuringRepairRun ∧ Accepted eventDuringRepairRun routerEvent 5 ∧
      ∀ m > 5, ¬ Observes eventDuringRepairRun routerEvent watchedRouter m := by
  refine ⟨goroutines_ofList (by decide +kernel) (by decide +kernel) (by decide +kernel),
    ⟨rfl, by decide, rfl, by decide +kernel⟩, ?_⟩
  rintro m hm ⟨w, rest, broken, ⟨good, hact⟩, hphase, -⟩
  rcases lt_or_ge m 8 with hlt | hge
  · -- The only worker that is not idle is past the router.
    have hpast : ∀ m < 8, 5 < m → ∀ w, (eventDuringRepairRun.state m).phase w = .idle ∨
        (eventDuringRepairRun.state m).phase w = .survey routerEvent [] [] ∨
        (eventDuringRepairRun.state m).phase w = .returned routerEvent := by
      decide +kernel
    rcases hpast m hlt hm w with hw | hw | hw
    all_goals cases hw.symm.trans hphase
  · have hrest : eventDuringRepairRun.act m = .environment quietLab := getD_eq_default _ _ hge
    cases hrest.symm.trans hact

end Agent

end Twinet
