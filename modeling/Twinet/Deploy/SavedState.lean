import Twinet.Lib.Machine
import Twinet.Deploy.CaptureGuard

/-!
# Saved Network State

The life of one student-owned device and of the network state saved for it. Its
task can be restarted at any time, and every start puts it into a new and empty
network namespace; its interfaces can be deleted and built again. Any number of
engines work on it at once: a deployment observes it, puts its saved state back
and records the namespace it is in, a rewire marks it first and lets go of it
last, a capture reads it and stores what it read after asking the guard. Every
step is one command or one access to the disk, so that the engines interleave as
they can in one agent. Commands and readings of an identity can fail.

A replay reads what is saved and then runs one command after another. The task
may be restarted between any two of them, and the later ones then go to the new
namespace. State counts as replayed into a namespace when every command for it
was run there.

Saved state and readings carry where they came from: the namespace, how often
interfaces had been deleted by then, and what had been replayed. No step of the
source looks at these; they are there to say what a capture may replace.

## Main definitions

* `Replay`: How far the replay of an engine has got.
* `EngineState`, `DeviceState`: What an engine has in hand, and the device.
* `savedState`: The machine.
* `Continues`: What a reading may replace.
-/

namespace Twinet

namespace Deploy

open Function

/-- A line of a reading: an object that stays where it was put, or a route,
    which daemons install and withdraw. -/
inductive Fact where
  | object (text : String)
  | route (text : String)
deriving DecidableEq, Repr

def stableNamespaceFacts (facts : List Fact) : List Fact :=
  facts.filter fun
    | .object _ => true
    | .route _ => false

/-- Network state read out of a device, with the namespace it was read from, the
    deletions of interfaces until then, and the replays until then. -/
structure Reading where
  netns : Nat
  cuts : Nat
  facts : List Fact
  replays : List (Nat × Nat)
deriving DecidableEq, Repr

/-- Network state as it is saved. Every save has a number. -/
structure Saved where
  number : Nat
  netns : Nat
  cuts : Nat
  facts : List Fact
deriving DecidableEq, Repr

/-- One command of a replay: what is there of a kind is cleared, or a line is put back. -/
inductive Command where
  | reset (k : Kind)
  | add (k : Kind) (fact : Fact)
deriving DecidableEq, Repr

def Command.kind : Command → Kind
  | reset k => k
  | add k _ => k

/-- The commands of a replay for what is in the namespace. Tunnels come before the
    addresses and routes that name them, and the routes over the tunnels after those. -/
def replayCommands (saved : Kind → Option Saved) : List Command :=
  let facts (k : Kind) : List Fact := ((saved k).map (·.facts)).getD []
  let reset (k : Kind) : List Command := if (saved k).isSome then [.reset k] else []
  let isRoute : Fact → Bool
    | .object _ => false
    | .route _ => true
  reset .tunnels ++ ((facts .tunnels).filter (!isRoute ·)).map (.add .tunnels) ++
    reset .addrs ++ (facts .addrs).map (.add .addrs) ++
    ((facts .tunnels).filter isRoute).map (.add .tunnels) ++
    reset .ovs ++ (facts .ovs).map (.add .ovs)

/-- A replay under way: what it read, the commands that are left, the namespace in which each
    kind was cleared, and where the device was when it was read. -/
structure Replay where
  saved : Kind → Option Saved
  left : List Command
  cleared : Kind → Option Nat
  since : Nat × Nat

/-- How far the capture of an engine has got. -/
inductive CapturePhase where
  | reading
  /-- The record has been read. -/
  | loaded
  /-- The identity has been compared. -/
  | checked
  /-- The marker has been looked for. -/
  | storing
deriving DecidableEq, Repr

/-- What an engine has in hand about the device. `tracker` is its copy of the
    recorded namespace, once it has read the record; `assured` is the namespace
    and the number of deletions at which its last replay that was done began, or
    at which it last found the device, unmarked, where the record says it is. -/
structure EngineState where
  finding : Finding
  tracker : Option (Option Nat)
  replayed : Bool
  fetched : Option Replay
  phase : CapturePhase
  readings : Kind → Option Reading
  assured : Option (Nat × Nat)

def EngineState.fresh : EngineState :=
  { finding := .nothing, tracker := none, replayed := false, fetched := none, phase := .reading
    readings := fun _ => none, assured := none }

/-- The device: whether its task runs and in which namespace, what is in there,
    the marker in its container, the recorded namespace, the saved state, and
    the engines. -/
structure DeviceState (ι : Type) where
  running : Bool
  netns : Nat
  cuts : Nat
  live : Kind → List Fact
  marker : Bool
  baseline : Option Nat
  store : Kind → Option Saved
  saves : Nat
  replays : List (Nat × Nat)
  engine : ι → EngineState

/-- A device nothing has been done to. -/
def DeviceState.unused {ι : Type} : DeviceState ι :=
  { running := false, netns := 0, cuts := 0, live := fun _ => [], marker := false
    baseline := none, store := fun _ => none, saves := 0, replays := []
    engine := fun _ => .fresh }

/-- One step. A flag says what becomes of the command in it: `ran`, that it
    took effect; `told`, that the engine was told so; `answers`, that a question
    was answered; `modelled`, that everything the manifest puts into the
    namespace was found there. -/
inductive Action (ι : Type) where
  | edit (k : Kind) (facts : List Fact)
  | stop
  | restart
  /-- The container is removed and made again from its image. -/
  | recreate (i : ι)
  /-- Interfaces are deleted, by wiring or with the other end of a cable. -/
  | unplug (left : Kind → List Fact)
  /-- The agent of the engine is restarted. -/
  | forget (i : ι)
  | observe (i : ι) (answers modelled : Bool)
  | restoreIfNeeded (i : ι) (ran : Bool)
  | holdNamespaceState (i : ι) (ran told : Bool)
  /-- A replay reads the saved state. -/
  | fetch (i : ι)
  /-- A replay runs its next command. -/
  | restore (i : ι) (ok : Bool)
  | clearRestorePending (i : ι) (ran : Bool)
  /-- A pass that writes the reference records without having put anything back. -/
  | recordDeviceNamespace (i : ι) (writesReference answers probed : Bool)
  /-- The engine writes the whole record for another device's sake. -/
  | saveRecord (i : ι)
  | capture (i : ι) (k : Kind)
  | loadObservation (i : ι) (ok : Bool)
  | settleCaptureSafety (i : ι) (answers modelled : Bool)
  | storableSnapshots (i : ι) (answers : Bool)
  | put (i : ι) (k : Kind)
  | finish (i : ι)

namespace DeviceState

variable {ι : Type} [DecidableEq ι] (s : DeviceState ι) (i : ι) (answers : Bool)

def setEngine (e : EngineState) : DeviceState ι :=
  { s with engine := update s.engine i e }

/-- The identity of the namespace, if it can be read. -/
def netnsIdentityOf : Option Nat :=
  if s.running && answers then some s.netns else none

variable (ran modelled : Bool)

/-- The namespace is shown to hold what the manifest puts there and every
    stable object that is saved. -/
def proveNamespaceBaseline : Option Nat :=
  if modelled && namespaceBackedKinds.all (fun k => (s.store k).all (fun saved =>
      (stableNamespaceFacts saved.facts).all (fun fact => (s.live k).contains fact)))
  then s.netnsIdentityOf answers
  else none

/-- A new task is in a new namespace with nothing in it. -/
def renew (marker : Bool) : DeviceState ι :=
  { s with running := true, netns := s.netns + 1, live := fun _ => [], marker := marker }

def recreate : DeviceState ι :=
  (s.renew false).setEngine i
    { s.engine i with finding := { (s.engine i).finding with createdThisPass := true } }

/-- The part of a build that is about the namespace of the device: it reads the
    record and compares. -/
def observe : DeviceState ι :=
  let e := s.engine i
  let pass : EngineState :=
    { e with
      finding := { Finding.nothing with pendingRestore := e.finding.pendingRestore }
      tracker := some s.baseline, replayed := false, assured := none }
  match s.baseline with
  | none =>
    match s.proveNamespaceBaseline answers modelled with
    | none => s.setEngine i { pass with finding := { pass.finding with unprovenNamespace := true } }
    | some n => s.setEngine i { pass with tracker := some (some n) }
  | some n =>
    if s.running = false then s.setEngine i pass
    else if s.netnsIdentityOf answers = some n then
      s.setEngine i
        { pass with assured := if s.marker then none else some (s.netns, s.cuts) }
    else s.setEngine i { pass with finding := { pass.finding with lostNamespaceState := true } }

/-- The device owes a replay: in memory, and as well as it goes in its
    container. -/
def restoreIfNeeded : DeviceState ι :=
  { s with marker := s.marker || ran }.setEngine i
    { s.engine i with finding := { (s.engine i).finding with pendingRestore := true } }

/-- Mark the device before its interfaces are deleted. -/
def holdNamespaceState (told : Bool) : DeviceState ι :=
  let e := s.engine i
  { s with marker := s.marker || ran }.setEngine i
    { e with
      finding := { e.finding with pendingRestore := e.finding.pendingRestore || told }
      replayed := false
      assured := if !s.marker && s.running && s.baseline == some s.netns then
        some (s.netns, s.cuts) else e.assured }

/-- A replay begins: it reads what is saved. -/
def fetch : DeviceState ι :=
  s.setEngine i
    { s.engine i with
      fetched := some
        { saved := s.store, left := replayCommands s.store, cleared := fun _ => none
          since := (s.netns, s.cuts) } }

/-- What is replayed of a kind when none of its commands is left: its save, if the kind was
    cleared in the namespace the last of them is run in. -/
def replayedInto (p : Replay) (k : Kind) (left : List Command) : List (Nat × Nat) :=
  if p.cleared k = some s.netns ∧ ∀ c ∈ left, c.kind ≠ k then
    ((p.saved k).map fun saved => (saved.number, s.netns)).toList
  else []

/-- A command of a replay was accepted. -/
def command (p : Replay) (c : Command) (left : List Command) : DeviceState ι :=
  let p : Replay :=
    { p with
      left := left
      cleared := match c with
        | .reset k => update p.cleared k (some s.netns)
        | .add _ _ => p.cleared }
  let ran : DeviceState ι :=
    { s with
      live := update s.live c.kind (match c with
        | .reset _ => []
        | .add k fact => s.live k ++ [fact])
      replays := s.replays ++ s.replayedInto p c.kind left }
  ran.setEngine i { s.engine i with fetched := some p }

/-- The last command loads the configuration of the routing daemon, which is not in the
    namespace. Then the replay is done. -/
def restored (p : Replay) : DeviceState ι :=
  let files := allKinds.filter fun k => !namespaceBackedKind k
  let loaded : DeviceState ι :=
    { s with
      live := fun k => if k ∈ files then ((p.saved k).map (·.facts)).getD (s.live k) else s.live k
      replays := s.replays ++
        files.filterMap fun k => (p.saved k).map fun saved => (saved.number, s.netns) }
  loaded.setEngine i
    { s.engine i with fetched := none, replayed := true, assured := some p.since }

/-- A replay goes on. A command that fails ends it. -/
def restore (p : Replay) (ok : Bool) : DeviceState ι :=
  if s.running && ok then
    match p.left with
    | [] => s.restored i p
    | c :: left => s.command i p c left
  else s.setEngine i { s.engine i with fetched := none }

/-- The device owes nothing any more. -/
def clearRestorePending : DeviceState ι :=
  { s with marker := s.marker && !ran }.setEngine i
    { s.engine i with finding := { (s.engine i).finding with pendingRestore := false } }

/-- The pass has put the saved state back, or has found nothing to put back. -/
def settled (e : EngineState) (probed : Bool) : Bool :=
  e.replayed || (!e.finding.lostNamespaceState && !e.finding.pendingRestore &&
    !(probed && s.marker))

/-- Record the namespace the device is in now. -/
def recordDeviceNamespace : DeviceState ι :=
  let e := s.engine i
  let made : EngineState := { e with finding := { e.finding with lostNamespaceState := false } }
  if e.finding.namespaceUnproven then s.setEngine i made
  else
    match s.netnsIdentityOf answers with
    | none => s
    | some n => { s with baseline := some n }.setEngine i { made with tracker := some (some n) }

def capture (k : Kind) : DeviceState ι :=
  s.setEngine i
    { s.engine i with
      readings := update (s.engine i).readings k
        (some { netns := s.netns, cuts := s.cuts, facts := s.live k, replays := s.replays }) }

def loadObservation (ok : Bool) : DeviceState ι :=
  s.setEngine i
    { s.engine i with phase := .loaded, tracker := some (if ok then s.baseline else none) }

/-- Compare the namespace with the recorded one, or prove it. -/
def settle : DeviceState ι :=
  let e := s.engine i
  let found := settleCaptureSafety e.finding (e.tracker.getD none) (s.netnsIdentityOf answers)
    (s.proveNamespaceBaseline answers modelled)
  s.setEngine i
    { e with
      phase := .checked
      finding := found.1
      tracker := match found.2 with
        | some n => some (some n)
        | none => e.tracker }

/-- Look for the marker, and drop what may not be stored. -/
def storableSnapshots : DeviceState ι :=
  let e := s.engine i
  s.setEngine i
    { e with
      phase := .storing
      readings := if storable e.finding (answers && s.marker) then e.readings else fun _ => none }

/-- Make a reading the current save, unless it says the same. -/
def put (k : Kind) (r : Reading) : DeviceState ι :=
  let e := s.engine i
  let s := s.setEngine i { e with readings := update e.readings k none }
  if (s.store k).map (·.facts) = some r.facts then s
  else
    { s with
      store := update s.store k
        (some { number := s.saves, netns := r.netns, cuts := r.cuts, facts := r.facts })
      saves := s.saves + 1 }

end DeviceState

/-- One step: the device afterwards, and what a capture has replaced by what. A
    step that is not the next one of its engine does nothing. An engine does one
    thing at a time: it does not go on with a pass between the guard of a
    capture and its end. -/
def savedState (ι : Type) [DecidableEq ι] :
    Machine (DeviceState ι) (Action ι) (Saved × Reading) where
  step s a :=
    let free (i : ι) (next : DeviceState ι) : DeviceState ι × List (Saved × Reading) :=
      if (s.engine i).phase = .reading then (next, []) else (s, [])
    match a with
    | .edit k facts => ({ s with live := update s.live k facts }, [])
    | .stop => ({ s with running := false }, [])
    | .restart => (s.renew s.marker, [])
    | .recreate i => free i (s.recreate i)
    | .unplug left => ({ s with cuts := s.cuts + 1, live := left }, [])
    | .forget i => (s.setEngine i .fresh, [])
    | .observe i answers modelled => free i (s.observe i answers modelled)
    | .restoreIfNeeded i ran => free i (s.restoreIfNeeded i ran)
    | .holdNamespaceState i ran told => free i (s.holdNamespaceState i ran told)
    | .fetch i => free i (s.fetch i)
    | .restore i ok =>
      match (s.engine i).fetched with
      | none => (s, [])
      | some p => (s.restore i p ok, [])
    | .clearRestorePending i ran => free i (s.clearRestorePending i ran)
    | .recordDeviceNamespace i writesReference answers probed =>
      if writesReference || s.settled (s.engine i) probed then
        free i (s.recordDeviceNamespace i answers)
      else (s, [])
    | .saveRecord i =>
      match (s.engine i).tracker with
      | none => (s, [])
      | some recorded => ({ s with baseline := recorded }, [])
    | .capture i k =>
      if s.running && namespaceBackedKind k then free i (s.capture i k) else (s, [])
    | .loadObservation i ok => free i (s.loadObservation i ok)
    | .settleCaptureSafety i answers modelled =>
      if (s.engine i).phase = .loaded then (s.settle i answers modelled, []) else (s, [])
    | .storableSnapshots i answers =>
      if (s.engine i).phase = .checked then (s.storableSnapshots i answers, []) else (s, [])
    | .put i k =>
      match (s.engine i).readings k with
      | none => (s, [])
      | some r =>
        if (s.engine i).phase = .storing then
          (s.put i k r, if (s.store k).map (·.facts) = some r.facts then []
            else (s.store k).toList.map fun saved => (saved, r))
        else (s, [])
    | .finish i =>
      (s.setEngine i { s.engine i with phase := .reading, readings := fun _ => none }, [])

/-- A reading may replace saved state: it was read from the namespace the saved
    state was captured in with no interface deleted since, or the saved state
    had been replayed into that namespace before. -/
def Continues (saved : Saved) (r : Reading) : Prop :=
  (r.netns = saved.netns ∧ r.cuts ≤ saved.cuts) ∨ (saved.number, r.netns) ∈ r.replays

instance (saved : Saved) (r : Reading) : Decidable (Continues saved r) :=
  inferInstanceAs (Decidable (_ ∨ _))

end Deploy

end Twinet
