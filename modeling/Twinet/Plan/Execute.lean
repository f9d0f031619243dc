import Twinet.Lib.Guarded
import Twinet.Plan.Steps

/-!
# Executing a Plan

One scheduler and a pool of workers. The scheduler hands out steps that wait for
nothing more, in the order of the plan, takes results back one at a time, and
settles each: it is recorded, and steps that waited for it and for nothing else
become ready. A step whose scope has failed, or that waited for one that failed,
is settled as skipped and never handed out.

Everything the scheduler does not decide is an action of the environment: when a
worker gets to a step it was handed, when a step is over and with what error,
and when the caller cancels. Where the scheduler waits for one of several things,
which one it takes is an action as well.

## Main definitions

* `Exec`: The bookkeeping, the workers and the results on their way.
* `settle`: What a result does.
* `advance`: The next step of the scheduler.
* `executor`: All actions, those of the environment included.
-/

namespace Twinet

namespace Plan

open Function

structure Options where
  workers : Int
  continueOnError : Bool
  dryRun : Bool
deriving DecidableEq, Repr

def defaultWorkers (cpus : Nat) : Nat :=
  let w := cpus * 4
  let w := if w < 8 then 8 else w
  if w > 256 then 256 else w

/-- A plan, how to execute it, and the processors there are. -/
structure Config where
  plan : Plan
  options : Options
  cpus : Nat

def Config.workers (c : Config) : Nat :=
  if c.options.workers ≤ 0 then defaultWorkers c.cpus else c.options.workers.toNat

variable {ε : Type}

/-- Why a step has no result of its own, or the one it has. -/
inductive StepError (ε : Type) where
  | run (err : ε)
  | prerequisite (need : String)
  | context
deriving DecidableEq, Repr

structure Result (ε : Type) where
  step : Step
  err : Option (StepError ε)
  skipped : Bool
deriving DecidableEq, Repr

/-- The step was run, is required, and failed. -/
def Result.failed (r : Result ε) : Bool := r.err.isSome && !r.skipped && !r.step.optional

/-- What the observer is told. -/
inductive Event (ε : Type) where
  | started (s : Step)
  | finished (r : Result ε)
deriving DecidableEq, Repr

/-- Why the scheduler stopped early. -/
inductive StopError (ε : Type) where
  | context
  | deadlock (pending : List String)
  | failed (describe : String) (err : StepError ε)
deriving DecidableEq, Repr

/-- Where the scheduler is in its loop. -/
inductive Counter where
  | head
  | resolve (progressed : Bool)
  | offer
  | wait
  | drain
  | returned
deriving DecidableEq, Repr

/-- The scheduler's bookkeeping, the steps its workers hold, and the results on
    their way back. A worker has taken a step before it is active. -/
structure Exec (ε : Type) where
  remaining : String → Int
  failedScopes : String → Bool
  failedSteps : String → Bool
  results : String → Option (Result ε)
  ready : List Step
  running : Nat
  stop : Option (StopError ε)
  counter : Counter
  cancelled : Bool
  taken : List Step
  active : List Step
  done : List (Result ε)
  observed : List (Event ε)

/-- The steps that wait for a step, once for each time they name it. -/
def dependents (p : Plan) (id : String) : List Step :=
  p.steps.flatMap fun s => (s.needs.filter (· = id)).map fun _ => s

def order (p : Plan) (s : Step) : Nat := p.steps.idxOf s

def initial (c : Config) : Exec ε where
  remaining := fun id => (c.plan.needs id).length
  failedScopes := fun _ => false
  failedSteps := fun _ => false
  results := fun _ => none
  ready := c.plan.steps.filter fun s => s.needs.length = 0
  running := 0
  stop := none
  counter := .head
  cancelled := false
  taken := []
  active := []
  done := []
  observed := []

/-! ### The scheduler -/

/-- Count down for each step that waited, and add those that wait no more. -/
def release : List Step → (String → Int) → List Step → (String → Int) × List Step
  | [], remaining, ready => (remaining, ready)
  | dep :: rest, remaining, ready =>
    let left := remaining dep.id - 1
    release rest (update remaining dep.id left)
      (if left = 0 then ready ++ [dep] else ready)

/-- The name a scope has in a report. -/
def scopeOf (s : Step) : String := if s.scope = "" then "lab" else s.scope

variable (c : Config) (e : Exec ε)

def settle (r : Result ε) (skippedByFailure : Bool) : Exec ε :=
  let released := release (dependents c.plan r.step.id) e.remaining e.ready
  { e with
    results := update e.results r.step.id (some r)
    failedSteps := if skippedByFailure || r.failed then
      update e.failedSteps r.step.id true else e.failedSteps
    failedScopes := if r.failed then
      update e.failedScopes (scopeOf r.step) true else e.failedScopes
    remaining := released.1
    ready := released.2.insertionSort fun a b => order c.plan a ≤ order c.plan b }

/-- The result of a step that is not to be run, and whether a failure is why. -/
def skip (s : Step) : Option (Result ε × Bool) :=
  if c.options.dryRun then some ({ step := s, err := none, skipped := true }, false)
  else if s.scope ≠ "" ∧ e.failedScopes s.scope then
    some ({ step := s, err := none, skipped := true }, true)
  else
    (s.needs.find? e.failedSteps).map fun need =>
      ({ step := s, err := some (.prerequisite need), skipped := true }, true)

def settled (id : String) : Bool := (e.results id).isSome

/-- Stop early. Whatever is in flight is told. -/
def halt (why : StopError ε) : Exec ε :=
  { e with stop := some why, counter := .drain }

/-- The names of the steps that have no result. -/
def pending : List String :=
  (c.plan.steps.map Step.id).filter fun id => !settled e id

/-- Nothing is left to hand out. -/
def await : Exec ε :=
  if e.running = 0 then halt e (.deadlock (pending c e)) else { e with counter := .wait }

/-- Nothing is left to skip. -/
def dispatch (progressed : Bool) : Exec ε :=
  if progressed then { e with counter := .head }
  else if e.ready ≠ [] ∧ e.running < c.workers then { e with counter := .offer }
  else await c e

def resolve (progressed : Bool) : Exec ε :=
  match e.ready with
  | [] => dispatch c e progressed
  | s :: rest =>
    match skip c e s with
    | some (r, blocked) =>
      { settle c { e with ready := rest } r blocked with counter := .resolve true }
    | none => dispatch c e progressed

/-- Take a result back. -/
def receive (r : Result ε) (rest : List (Result ε)) : Exec ε :=
  let e := settle c { e with done := rest, running := e.running - 1 } r false
  match r.err with
  | some err =>
    if !r.step.optional && !c.options.continueOnError then
      halt e (.failed r.step.describe err)
    else { e with counter := .head }
  | none => { e with counter := .head }

/-- The next step of the scheduler. -/
def advance : Exec ε :=
  match e.counter with
  | .head =>
    if pending c e ≠ [] then
      if e.cancelled then halt e .context else { e with counter := .resolve false }
    else { e with counter := .drain }
  | .resolve progressed => resolve c e progressed
  | .offer =>
    match e.ready with
    | s :: rest =>
      { e with
        ready := rest, taken := e.taken ++ [s], running := e.running + 1, counter := .head }
    | [] => e
  | .wait =>
    match e.done with
    | r :: rest => receive c e r rest
    | [] => e
  | .drain =>
    if e.running = 0 then { e with counter := .returned }
    else { e with done := e.done.tail, running := e.running - 1 }
  | .returned => e

/-! ### Scheduler, workers and caller -/

inductive Act (ε : Type) where
  | cancel
  | start (s : Step)
  | finish (s : Step) (err : Option ε)
  | advance
  | abandon
deriving DecidableEq, Repr

/-- A worker gets to the step it was handed, unless it was cancelled by then. -/
def start (s : Step) : Exec ε :=
  if e.cancelled || e.stop.isSome then
    { e with
      taken := e.taken.erase s
      done := e.done ++ [{ step := s, err := some .context, skipped := true }] }
  else
    { e with
      taken := e.taken.erase s, active := e.active ++ [s]
      observed := e.observed ++ [.started s] }

def finish (s : Step) (err : Option ε) : Exec ε :=
  let r : Result ε := { step := s, err := err.map .run, skipped := false }
  { e with
    active := e.active.erase s, done := e.done ++ [r], observed := e.observed ++ [.finished r] }

/-- The scheduler can go on. -/
def canAdvance : Bool :=
  match e.counter with
  | .offer => !e.ready.isEmpty
  | .wait => !e.done.isEmpty
  | .drain => e.running = 0 || !e.done.isEmpty
  | .returned => false
  | _ => true

/-- The executor. Where the scheduler waits it can see that it was cancelled. -/
def executor : Guarded (Exec ε) (Act ε) where
  accepts := fun e a =>
    match a with
    | .cancel => !e.cancelled
    | .start s => s ∈ e.taken
    | .finish s _ => s ∈ e.active
    | .advance => canAdvance e
    | .abandon => e.cancelled && (e.counter = .offer || e.counter = .wait)
  apply := fun e a =>
    match a with
    | .cancel => { e with cancelled := true }
    | .start s => start e s
    | .finish s err => finish e s err
    | .advance => advance c e
    | .abandon => halt e .context

/-! ### What the caller gets -/

/-- The results in the order of the plan. -/
def report : List (Result ε) := c.plan.steps.filterMap fun s => e.results s.id

end Plan

end Twinet
