import Twinet.Agent.Coordination
import Twinet.Lib.Machine

/-!
# The Operation Lock

On one node at most one operation works on a lab at a time. The operations are
registered in a table by lab. A newcomer is refused, or it tells the registered
operation to stop and waits until that one has unwound: there is no taking the entry
of another operation.

Three functions take the lock, and all give an operation its own number. Two of
them release by that number, so a release that comes late or twice finds another
number and does nothing. The third way, `release`, deletes whatever is registered
for the lab. It is called once by each operation that was begun by `acquire`, so
what makes it safe is that such an operation stays registered until then.

A waiting newcomer tries again when the operation it waits for is done, and here at
any time: each turn of the loops in `acquireForcedOperation` and
`acquireRecoveryOperation` is an action of its own. The numbers are natural
numbers: the counter has 64 bits and counts operations.

A recovery that makes progress, or whose heartbeat comes, moves its own deadline:
whether it is stale is decided by the last one. The caller gives the deadline here,
because it is made of the limits of its phase.

## Main definitions

* `acquireOperation`, `preempt`: The two ways to ask for the lock.
* `moveDeadline`: What the progress of a recovery does to its entry.
* `releaseOperation`, `release`: The two ways to give it back.
* `operations`: All of them as actions of one machine.
* `Registered`: The operations at work are the registered ones.

## Theorems

* `Registered.beginOperation`, `Registered.endOperation`: The actions keep the register.
* `operation_lock_exclusive`: Mutual exclusion, for any number of labs and callers.
-/

namespace Twinet

namespace Agent

open List AList

inductive OperationKind where
  | apply
  | reconcile
  | forcedReconcile
  | recovery
  | destroy
  | ephemeralReap
  | commit
  | exemption
  | overlayReconcile
  | stateImport
  | gc
  | mplsLabelSpace
  | reshape
  | lifecycle
deriving DecidableEq, Repr

/-- A registered operation. It is cancellable if it has a function to stop it and a
    channel that says it is done. -/
structure Operation where
  id : Nat
  kind : OperationKind
  deadline : Time
  cancellable : Bool
deriving DecidableEq, Repr

structure Operations where
  ops : Table String Operation
  opSequence : Nat

inductive OperationError where
  | labRequired
  | alreadyRunning (lab : String) (kind : OperationKind)
deriving DecidableEq, Repr

/-- What trying to take the lock comes to: an operation, a refusal, or a wait for the
    operation that was told to stop. -/
inductive Attempt where
  | granted (op : Operation)
  | refused (err : OperationError)
  | waiting (held : Operation)
deriving DecidableEq, Repr

section

variable (s : Operations) (now : Time) (lab : String) (kind : OperationKind)

variable (deadline : Time) (cancellable takeover : Bool)

/-- Register an operation under the next number. -/
def register : Operations × Attempt :=
  let op : Operation :=
    { id := s.opSequence + 1, kind := kind, deadline := deadline, cancellable := cancellable }
  ({ ops := s.ops.insert lab op, opSequence := s.opSequence + 1 }, .granted op)

/-- Refuse if anything is registered for the lab. -/
def acquireOperation : Operations × Attempt :=
  if lab = "" then (s, .refused .labRequired)
  else match s.ops.lookup lab with
    | some held => (s, .refused (.alreadyRunning lab held.kind))
    | none => register s lab kind 0 cancellable

/-- A recovery that has run past its own deadline. -/
def staleRecovery (held : Operation) : Bool :=
  held.kind = .recovery && held.deadline ≠ 0 && !decide (now < held.deadline)

/-- An operation that may be told to stop, a stale recovery only if that is asked
    for. -/
def preemptible (held : Operation) : Bool :=
  held.cancellable &&
    (held.kind = .reconcile || held.kind = .apply || (staleRecovery now held && takeover))

/-- One turn of a loop that takes the lock from work that can be stopped. -/
def preempt : Operations × Attempt :=
  if lab = "" then (s, .refused .labRequired)
  else match s.ops.lookup lab with
    | none => register s lab kind deadline cancellable
    | some held =>
      if preemptible now takeover held then (s, .waiting held)
      else (s, .refused (.alreadyRunning lab held.kind))

/-- One turn of the loop. The operation itself cannot be stopped. -/
def acquireForcedOperation (preemptStaleRecovery : Bool) : Operations × Attempt :=
  preempt s now lab kind 0 false preemptStaleRecovery

def acquireDestroyOperation (force : Bool) : Operations × Attempt :=
  if force then acquireForcedOperation s now lab .destroy false
  else acquireOperation s lab .destroy false

/-- One turn of the loop. -/
def acquireRecoveryOperation : Operations × Attempt :=
  preempt s now lab .recovery deadline cancellable takeover

/-- Give the lock back under the number of the operation. The release of a recovery
    is the same. -/
def releaseOperation (id : Nat) : Operations :=
  if (s.ops.lookup lab).any (·.id = id) then { s with ops := s.ops.erase lab } else s

/-- The progress of a recovery moves the deadline of the registered one. -/
def moveDeadline : Operations :=
  match s.ops.lookup lab with
  | some held =>
    if held.kind = .recovery then
      { s with ops := s.ops.insert lab { held with deadline := deadline } }
    else s
  | none => s

/-- Give the lock back, whoever has it. -/
def release : Operations := { s with ops := s.ops.erase lab }

end

/-! ### Callers -/

/-- What the caller of an operation has in hand to end it. A plain one was begun by
    `acquire` and is ended by `release`. -/
structure Handle where
  lab : String
  id : Nat
  plain : Bool
deriving DecidableEq, Repr

/-- The lock, every operation that was ever begun and those that were not ended. -/
structure OperationState where
  server : Operations
  now : Time
  begun : List Handle
  atWork : List Handle

inductive OperationAction where
  | acquire (lab : String) (kind : OperationKind)
  | acquireOperation (lab : String) (kind : OperationKind) (cancellable : Bool)
  | acquireForced (lab : String) (kind : OperationKind) (preemptStaleRecovery : Bool)
  | acquireDestroy (lab : String) (force : Bool)
  | acquireRecovery (lab : String) (deadline : Time) (cancellable takeover : Bool)
  | progress (lab : String) (deadline : Time)
  | release (h : Handle)
  | tick (d : Time)

/-- An operation was told to stop, with what was asked for and when, or an operation
    was taken off the register. -/
inductive OperationEvent where
  | cancelled (held : Operation) (takeover : Bool) (now : Time)
  | removed (h : Handle) (op : Operation)
deriving DecidableEq, Repr

/-- A caller goes on with what it got. -/
def beginOperation (s : OperationState) (lab : String) (plain takeover : Bool) :
    Operations × Attempt → OperationState × List OperationEvent
  | (server, .granted op) =>
    ({ s with
       server := server
       begun := { lab := lab, id := op.id, plain := plain } :: s.begun
       atWork := { lab := lab, id := op.id, plain := plain } :: s.atWork }, [])
  | (server, .refused _) => ({ s with server := server }, [])
  | (server, .waiting held) => ({ s with server := server }, [.cancelled held takeover s.now])

/-- The lock after an operation is ended. -/
def Handle.releaseFrom (h : Handle) (s : Operations) : Operations :=
  if h.plain then release s h.lab else releaseOperation s h.lab h.id

/-- An operation is ended. A plain one ends once, the others may end again at any
    later time. -/
def endOperation (s : OperationState) (h : Handle) : OperationState × List OperationEvent :=
  if h ∈ s.begun ∧ (h.plain = true → h ∈ s.atWork) then
    ({ s with server := h.releaseFrom s.server, atWork := s.atWork.erase h },
      match s.server.ops.lookup h.lab with
      | none => []
      | some op =>
        if ((h.releaseFrom s.server).ops.lookup h.lab).isSome then [] else [.removed h op])
  else (s, [])

def operationStep (s : OperationState) : OperationAction → OperationState × List OperationEvent
  | .acquire lab kind => beginOperation s lab true false (acquireOperation s.server lab kind false)
  | .acquireOperation lab kind cancellable =>
    beginOperation s lab false false (acquireOperation s.server lab kind cancellable)
  | .acquireForced lab kind preemptStaleRecovery =>
    beginOperation s lab false preemptStaleRecovery
      (acquireForcedOperation s.server s.now lab kind preemptStaleRecovery)
  | .acquireDestroy lab force =>
    beginOperation s lab false false (acquireDestroyOperation s.server s.now lab force)
  | .acquireRecovery lab deadline cancellable takeover =>
    beginOperation s lab false takeover
      (acquireRecoveryOperation s.server s.now lab deadline cancellable takeover)
  | .progress lab deadline => ({ s with server := moveDeadline s.server lab deadline }, [])
  | .release h => endOperation s h
  | .tick d => ({ s with now := s.now + d }, [])

def operations : Machine OperationState OperationAction OperationEvent := ⟨operationStep⟩

/-- A node without operations. -/
def idle (opSequence : Nat) (now : Time) : OperationState where
  server := { ops := ∅, opSequence := opSequence }
  now := now
  begun := []
  atWork := []

/-! ### The register -/

/-- The operations at work are the registered ones, and no two operations ever had
    one number. -/
structure Registered (s : OperationState) : Prop where
  registered : ∀ h ∈ s.atWork, ∃ op, s.server.ops.lookup h.lab = some op ∧ op.id = h.id
  atWork : ∀ lab op, s.server.ops.lookup lab = some op → ∃ h ∈ s.atWork, h.lab = lab ∧ h.id = op.id
  begun : ∀ h ∈ s.atWork, h ∈ s.begun
  counted : ∀ h ∈ s.begun, h.id ≤ s.server.opSequence
  once : ∀ h ∈ s.begun, ∀ h' ∈ s.begun, h.id = h'.id → h = h'
  nodup : s.atWork.Nodup

/-- What an event says is as it should be: only a stale recovery is told to stop, and
    only if that was asked for, and an operation is taken off by its own end. -/
def OperationEvent.Sound : OperationEvent → Prop
  | cancelled held takeover now =>
    held.kind = .recovery → takeover = true ∧ held.deadline ≠ 0 ∧ held.deadline ≤ now
  | removed h op => op.id = h.id

/-- What an attempt to take the lock does: it registers a new operation for a lab
    that has none, or it leaves the register alone. -/
inductive Tries (s : Operations) (now : Time) (lab : String) (takeover : Bool) :
    Operations × Attempt → Prop where
  | granted (kind : OperationKind) (deadline : Time) (cancellable : Bool)
      (free : s.ops.lookup lab = none) :
      Tries s now lab takeover (register s lab kind deadline cancellable)
  | refused (err : OperationError) : Tries s now lab takeover (s, .refused err)
  | waiting (held : Operation) (may : preemptible now takeover held = true) :
      Tries s now lab takeover (s, .waiting held)

section Tries

variable (s : Operations) (now : Time) (lab : String) (kind : OperationKind)

theorem tries_acquireOperation (cancellable takeover : Bool) :
    Tries s now lab takeover (acquireOperation s lab kind cancellable) := by
  unfold acquireOperation
  split_ifs
  · exact .refused _
  · split
    · exact .refused _
    · next hfree => exact .granted kind 0 cancellable hfree

theorem tries_preempt (deadline : Time) (cancellable takeover : Bool) :
    Tries s now lab takeover (preempt s now lab kind deadline cancellable takeover) := by
  fun_cases preempt s now lab kind deadline cancellable takeover with
  | case2 _ hfree => exact .granted kind deadline cancellable hfree
  | case3 _ held _ hmay => exact .waiting _ hmay
  | _ => exact .refused _

theorem tries_acquireDestroyOperation (force : Bool) :
    Tries s now lab false (acquireDestroyOperation s now lab force) := by
  cases force with
  | true => exact tries_preempt s now lab .destroy 0 false false
  | false => exact tries_acquireOperation s now lab .destroy false false

end Tries

variable {takeover : Bool}

theorem stale_of_preemptible {now : Time} {held : Operation} (hkind : held.kind = .recovery)
    (h : preemptible now takeover held = true) :
    takeover = true ∧ held.deadline ≠ 0 ∧ held.deadline ≤ now := by
  have hparts : held.cancellable = true ∧ (held.deadline ≠ 0 ∧ held.deadline ≤ now) ∧
      takeover = true := by
    simpa [preemptible, staleRecovery, hkind] using h
  exact ⟨hparts.2.2, hparts.2.1⟩

section Register

variable {s : OperationState}

theorem registered_idle (opSequence : Nat) (now : Time) : Registered (idle opSequence now) where
  registered := nofun
  atWork := nofun
  begun := nofun
  counted := nofun
  once := nofun
  nodup := nodup_nil

theorem Registered.exclusive (h : Registered s) {a b : Handle} (ha : a ∈ s.atWork)
    (hb : b ∈ s.atWork) (hlab : a.lab = b.lab) : a = b := by
  obtain ⟨op, hlook, hid⟩ := h.registered a ha
  obtain ⟨op', hlook', hid'⟩ := h.registered b hb
  rw [hlab, hlook', Option.some.injEq] at hlook
  rw [hlook] at hid'
  exact h.once a (h.begun a ha) b (h.begun b hb) (hid.symm.trans hid')

variable {lab : String}

theorem Registered.grant (h : Registered s) (free : s.server.ops.lookup lab = none)
    (kind : OperationKind) (deadline : Time) (cancellable plain takeover : Bool) :
    Registered (beginOperation s lab plain takeover
      (register s.server lab kind deadline cancellable)).1 := by
  -- the new identifier is beyond every one handed out
  have hfresh : ∀ a ∈ s.begun, a.id ≠ s.server.opSequence + 1 := fun a ha =>
    Nat.ne_of_lt (Nat.lt_succ_of_le (h.counted a ha))
  have hother : ∀ a ∈ s.atWork, a.lab ≠ lab := by
    intro a ha hlab
    obtain ⟨op, hlook, -⟩ := h.registered a ha
    rw [hlab, free] at hlook
    cases hlook
  refine ⟨?_, fun lab' op hlook => ?_, ?_, ?_, ?_, ?_⟩
  · refine forall_mem_cons.mpr ⟨⟨_, lookup_insert _, rfl⟩, fun a ha => ?_⟩
    obtain ⟨op, hlook, hid⟩ := h.registered a ha
    exact ⟨op, (lookup_insert_ne (hother a ha)).trans hlook, hid⟩
  · rcases Table.lookup_insert_eq_some.mp hlook with ⟨rfl, rfl⟩ | ⟨-, hlook⟩
    · exact ⟨_, mem_cons_self, rfl, rfl⟩
    · obtain ⟨a, ha, halab, haid⟩ := h.atWork lab' op hlook
      exact ⟨a, mem_cons_of_mem _ ha, halab, haid⟩
  · exact forall_mem_cons.mpr ⟨mem_cons_self, fun a ha =>
      mem_cons_of_mem _ (h.begun a ha)⟩
  · exact forall_mem_cons.mpr ⟨Nat.le_refl _, fun a ha => Nat.le_succ_of_le (h.counted a ha)⟩
  · refine forall_mem_cons.mpr ⟨?_, fun a ha => ?_⟩
    · exact forall_mem_cons.mpr ⟨fun _ => rfl, fun b hb hid =>
        absurd hid.symm (hfresh b hb)⟩
    · exact forall_mem_cons.mpr ⟨fun hid => absurd hid (hfresh a ha),
        fun b hb => h.once a ha b hb⟩
  · exact nodup_cons.mpr ⟨fun hmem => hfresh _ (h.begun _ hmem) rfl, h.nodup⟩

/-- Trying to take the lock keeps the register. -/
theorem Registered.beginOperation (h : Registered s) {r : Operations × Attempt}
    (htries : Tries s.server s.now lab takeover r) (plain : Bool) :
    Registered (beginOperation s lab plain takeover r).1 ∧
      ∀ e ∈ (Agent.beginOperation s lab plain takeover r).2, e.Sound := by
  cases htries with
  | granted kind deadline cancellable free =>
    exact ⟨h.grant free kind deadline cancellable plain takeover, by
      simp [Agent.beginOperation, register]⟩
  | refused err => exact ⟨h, by simp [Agent.beginOperation]⟩
  | waiting held may =>
    refine ⟨h, ?_⟩
    simp only [Agent.beginOperation, mem_singleton, forall_eq, OperationEvent.Sound]
    exact fun hkind => stale_of_preemptible hkind may

theorem Registered.releaseFrom (h : Registered s) {a : Handle} (ha : a ∈ s.begun)
    (hplain : a.plain = true → a ∈ s.atWork) :
    a.releaseFrom s.server = if a ∈ s.atWork then release s.server a.lab else s.server := by
  have hnumber : (s.server.ops.lookup a.lab).any (·.id = a.id) = true ↔ a ∈ s.atWork := by
    constructor
    · intro hany
      obtain ⟨op, hlook, hid⟩ := Option.any_eq_true _ _ |>.mp hany
      obtain ⟨b, hb, -, hbid⟩ := h.atWork a.lab op hlook
      rw [of_decide_eq_true hid] at hbid
      rw [h.once a ha b (h.begun b hb) hbid.symm]
      exact hb
    · intro hwork
      obtain ⟨op, hlook, hid⟩ := h.registered a hwork
      rw [hlook]
      exact decide_eq_true hid
  unfold Handle.releaseFrom releaseOperation
  cases hkind : a.plain with
  | true => rw [if_pos rfl, if_pos (hplain hkind)]
  | false => simp only [Bool.false_eq_true, if_false, hnumber, release]

/-- So does giving it back, also late or twice. -/
theorem Registered.endOperation (h : Registered s) (a : Handle) :
    Registered (endOperation s a).1 ∧ ∀ e ∈ (Agent.endOperation s a).2, e.Sound := by
  unfold Agent.endOperation
  by_cases hmay : a ∈ s.begun ∧ (a.plain = true → a ∈ s.atWork)
  swap
  · rw [if_neg hmay]
    exact ⟨h, nofun⟩
  rw [if_pos hmay, h.releaseFrom hmay.1 hmay.2]
  by_cases hwork : a ∈ s.atWork
  · rw [if_pos hwork, release]
    obtain ⟨op, hlook, hid⟩ := h.registered a hwork
    refine ⟨⟨fun b hb => ?_, fun lab op' hlook' => ?_, fun b hb => ?_, h.counted, h.once,
      h.nodup.erase a⟩, ?_⟩
    · -- the others work on other labs
      have hne : b.lab ≠ a.lab := fun hlab =>
        (h.nodup.mem_erase_iff.mp hb).1 (h.exclusive (mem_of_mem_erase hb) hwork hlab)
      obtain ⟨op', hlook', hid'⟩ := h.registered b (mem_of_mem_erase hb)
      exact ⟨op', (lookup_erase_ne hne).trans hlook', hid'⟩
    · obtain ⟨hne, hlook'⟩ := Table.lookup_erase_eq_some.mp hlook'
      obtain ⟨b, hb, hblab, hbid⟩ := h.atWork lab op' hlook'
      refine ⟨b, h.nodup.mem_erase_iff.mpr ⟨fun hba => hne ?_, hb⟩, hblab, hbid⟩
      rw [← hblab, hba]
    · exact h.begun b (mem_of_mem_erase hb)
    · rw [hlook, lookup_erase]
      intro e he
      rw [mem_singleton.mp he]
      exact hid
  · rw [if_neg hwork, erase_of_not_mem hwork]
    refine ⟨h, ?_⟩
    cases s.server.ops.lookup a.lab with
    | none | some op => exact nofun

/-- A moved deadline leaves every entry its number. -/
theorem map_id_moveDeadline (s : Operations) (lab : String) (deadline : Time) (lab' : String) :
    ((moveDeadline s lab deadline).ops.lookup lab').map Operation.id =
      (s.ops.lookup lab').map Operation.id := by
  fun_cases moveDeadline s lab deadline with
  | case1 held hlook hkind =>
    rcases eq_or_ne lab' lab with rfl | hne
    · simp only [lookup_insert, hlook, Option.map_some]
    · simp only [lookup_insert_ne hne]
  | case2 | case3 => rfl

theorem opSequence_moveDeadline (s : Operations) (lab : String) (deadline : Time) :
    (moveDeadline s lab deadline).opSequence = s.opSequence := by
  fun_cases moveDeadline s lab deadline with
  | case1 | case2 | case3 => rfl

/-- The register is about the numbers of the entries only. -/
theorem Registered.of_ids (h : Registered s) {server : Operations}
    (hseq : server.opSequence = s.server.opSequence)
    (hids : ∀ lab, (server.ops.lookup lab).map Operation.id =
      (s.server.ops.lookup lab).map Operation.id) :
    Registered { s with server := server } where
  registered a ha := by
    obtain ⟨op, hlook, hid⟩ := h.registered a ha
    have hmap := hids a.lab
    rw [hlook] at hmap
    obtain ⟨op', hlook', hid'⟩ := Option.map_eq_some_iff.mp hmap
    exact ⟨op', hlook', hid'.trans hid⟩
  atWork lab op hlook := by
    have hmap := (hids lab).symm
    rw [hlook] at hmap
    obtain ⟨op', hlook', hid'⟩ := Option.map_eq_some_iff.mp hmap
    obtain ⟨a, ha, halab, haid⟩ := h.atWork lab op' hlook'
    exact ⟨a, ha, halab, haid.trans hid'⟩
  begun := h.begun
  counted a ha := hseq.symm ▸ h.counted a ha
  once := h.once
  nodup := h.nodup

theorem Registered.step (h : Registered s) (a : OperationAction) :
    Registered (operationStep s a).1 ∧ ∀ e ∈ (operationStep s a).2, e.Sound := by
  cases a with
  | acquire lab kind => exact h.beginOperation (tries_acquireOperation ..) true
  | acquireOperation lab kind cancellable =>
    exact h.beginOperation (tries_acquireOperation ..) false
  | acquireForced lab kind preemptStaleRecovery => exact h.beginOperation (tries_preempt ..) false
  | acquireDestroy lab force => exact h.beginOperation (tries_acquireDestroyOperation ..) false
  | acquireRecovery lab deadline cancellable takeover =>
    exact h.beginOperation (tries_preempt ..) false
  | progress lab deadline =>
    exact ⟨h.of_ids (opSequence_moveDeadline ..) (map_id_moveDeadline _ lab deadline), nofun⟩
  | release a => exact h.endOperation a
  | tick d =>
    exact ⟨{ h with }, nofun⟩

end Register

/-- In every interleaving of the ways to take the lock and to give it back, for any
    labs and callers: two operations at work on one lab are one, and it is the
    registered one. An operation is taken off the register by its own end only,
    however late and often the ends come, and a recovery is told to make way only if
    it is stale and that was asked for. -/
theorem operation_lock_exclusive (opSequence : Nat) (now : Time) (acts : List OperationAction) :
    (∀ a ∈ (operations.run (idle opSequence now) acts).atWork,
      ∀ b ∈ (operations.run (idle opSequence now) acts).atWork, a.lab = b.lab → a = b) ∧
    (∀ a ∈ (operations.run (idle opSequence now) acts).atWork, ∃ op,
      (operations.run (idle opSequence now) acts).server.ops.lookup a.lab = some op ∧
        op.id = a.id) ∧
    (∀ a op, .removed a op ∈ operations.trace (idle opSequence now) acts → op.id = a.id) ∧
    ∀ held takeover now', .cancelled held takeover now' ∈
      operations.trace (idle opSequence now) acts → held.kind = .recovery →
        takeover = true ∧ held.deadline ≠ 0 ∧ held.deadline ≤ now' := by
  have hrun := operations.history_induction
    (fun hist s => Registered s ∧ ∀ e ∈ hist, e.Sound)
    (fun hist s a h => ⟨(h.1.step a).1, forall_mem_append.mpr ⟨h.2, (h.1.step a).2⟩⟩)
    [] (idle opSequence now) acts
    ⟨registered_idle opSequence now, nofun⟩
  rw [nil_append] at hrun
  obtain ⟨hregistered, hsound⟩ := hrun
  exact ⟨fun a ha b hb hlab => hregistered.exclusive ha hb hlab, hregistered.registered,
    fun a op he => hsound _ he, fun held takeover now' he => hsound _ he⟩

-- a recovery takes over from an apply, which then ends a second time
example : operations.trace (idle 0 1)
    [.acquireOperation "lab" .apply true, .acquireRecovery "lab" 9 true false,
     .release ⟨"lab", 1, false⟩, .acquireRecovery "lab" 9 true false,
     .release ⟨"lab", 1, false⟩] =
    [.cancelled ⟨1, .apply, 0, true⟩ false 1,
     .removed ⟨"lab", 1, false⟩ ⟨1, .apply, 0, true⟩] := by
  decide +kernel

-- a recovery that made progress is not stale at its first deadline
example : operations.trace (idle 0 1)
    [.acquireRecovery "lab" 9 true false, .progress "lab" 20, .tick 10,
     .acquireRecovery "lab" 30 true true, .tick 10, .acquireRecovery "lab" 30 true true] =
    [.cancelled ⟨1, .recovery, 20, true⟩ true 21] := by
  decide +kernel

end Agent

end Twinet
