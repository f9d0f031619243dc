import Mathlib.Data.Option.Basic

/-!
# The Guard of a Capture

What is read out of a network namespace may be stored only if the namespace is
the one the saved state came out of. Whoever captures compares the namespace
recorded on disk with the one the device is in now; without a record the device
has to be shown to hold what is saved for it. An engine keeps what it found, and
a finding is not asked about again.

Two findings withhold a reading. A namespace that was replaced is known not to
hold the student's work. A namespace that cannot be accounted for may or may
not, so a container with it is not removed either.

## Main definitions

* `settleCaptureSafety`: What is found out about a device.
* `storable`: Whether its network state may be stored.

## Theorems

* `settled_clear`: When nothing was found against the device.
* `settled_proven`: When there is a namespace to record.
-/

namespace Twinet

namespace Deploy

/-- What can be saved of a device. -/
inductive Kind where
  | frr
  | bird
  | addrs
  | ovs
  | tunnels
deriving DecidableEq, Repr

def allKinds : List Kind := [.frr, .bird, .addrs, .ovs, .tunnels]

theorem mem_allKinds (k : Kind) : k ∈ allKinds := by
  cases k <;> decide

/-- The kinds that record what is in a network namespace rather than what is on
    a filesystem. -/
def namespaceBackedKinds : List Kind := [.addrs, .tunnels, .ovs]

def namespaceBackedKind (k : Kind) : Bool := namespaceBackedKinds.contains k

/-- What an engine remembers about a device. -/
structure Finding where
  lostNamespaceState : Bool
  unprovenNamespace : Bool
  createdThisPass : Bool
  pendingRestore : Bool
deriving DecidableEq, Repr

/-- An engine that has found nothing. -/
def Finding.nothing : Finding :=
  { lostNamespaceState := false, unprovenNamespace := false, createdThisPass := false
    pendingRestore := false }

/-- A container made from its image in this pass is not in doubt, whatever the
    doubt was about. -/
def Finding.namespaceUnproven (m : Finding) : Bool := m.unprovenNamespace && !m.createdThisPass

/-- Establish whether a device may be captured, from the recorded namespace, the
    one it is in now and the one it was shown to hold its saved state in, each
    of which may be missing. The second component is a namespace to record. -/
def settleCaptureSafety {α : Type} [DecidableEq α] (m : Finding) (recorded now proven : Option α) :
    Finding × Option α :=
  if m.lostNamespaceState || m.namespaceUnproven then (m, none)
  else
    match recorded with
    | none =>
      match proven with
      | none => ({ m with unprovenNamespace := true }, none)
      | some n => (m, some n)
    | some n => if now = some n then (m, none) else ({ m with lostNamespaceState := true }, none)

/-- The network state read out of a device may be stored, given whether its
    container was seen to carry the marker. -/
def storable (m : Finding) (marked : Bool) : Bool :=
  !m.lostNamespaceState && !m.namespaceUnproven && !(m.pendingRestore || marked)

variable {m : Finding}

/-- Nothing is held against a device after the guard only if it is in its
    recorded namespace, or has none and was shown to be continuous or made in
    this pass. -/
theorem settled_clear {α : Type} [DecidableEq α] {recorded now proven : Option α}
    (hlost : (settleCaptureSafety m recorded now proven).1.lostNamespaceState = false)
    (hproven : (settleCaptureSafety m recorded now proven).1.namespaceUnproven = false) :
    (recorded = none ∧ (proven ≠ none ∨ m.createdThisPass = true)) ∨
      ∃ n, recorded = some n ∧ now = some n := by
  revert hlost hproven
  fun_cases settleCaptureSafety m recorded now proven with
  | case1 _ _ hold =>
    intro hl hu
    rw [hl, hu] at hold
    nomatch hold
  | case2 =>
    exact fun _ hproven => .inl ⟨rfl, .inr (by simpa [Finding.namespaceUnproven] using hproven)⟩
  | case3 => exact fun _ _ => .inl ⟨rfl, .inl (by simp)⟩
  | case4 _ _ n hsame => exact fun _ _ => .inr ⟨n, rfl, hsame⟩
  | case5 => nofun

/-- The guard gives out only a namespace that was proven where none was
    recorded. -/
theorem settled_proven {α : Type} [DecidableEq α] {recorded now proven : Option α} {n : α}
    (h : (settleCaptureSafety m recorded now proven).2 = some n) :
    recorded = none ∧ proven = some n := by
  revert h
  fun_cases settleCaptureSafety m recorded now proven with
  | case3 _ p => exact fun h => ⟨rfl, h⟩
  | _ => nofun

end Deploy

end Twinet
