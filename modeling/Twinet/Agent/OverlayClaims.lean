import Mathlib.Data.List.Sort
import Twinet.Agent.Fence
import Twinet.Lib.Custody

/-!
# Overlay Claims

An overlay identifier is used on the wire, where nothing else tells two labs
apart, so a node keeps a table of which lab claims which identifier. A claim is a
reservation made under a mutation lease, with the deadline of that lease, or the
record of an overlay that is live.

Everything that writes the table is an action here: reserving and promoting, the
lease operations that extend, drop and expire reservations, the restoration of
claims at the end of a rollback, the release of claims, a destroy and the
collector. Each of them holds the lock of the node throughout, so a run is a list
of actions in any order, for any labs. The aliases of the links in the kernel, the
proofs that an overlay without an owner belongs to a lab, and which labs are
protected by something else are given by the environment.

## Main definitions

* `reserveOverlays`, `promoteOverlayReservations`, `releaseOverlayClaims`: The life of a
  claim.
* `overlays`: Everything that writes the table, as a machine.
* `claimant`: The lab an identifier is claimed for.
* `Respects`: A restoration takes nothing from another lab.

## Theorems

* `keeps_iff_respects`: Which actions let an identifier change hands.
* `overlay_exclusive_iff`: When identifiers are exclusive in a run.
-/

namespace Twinet

namespace Agent

open Option List AList

/-- A node with the identifiers its collector is at work on. -/
structure OverlayNode where
  node : Node
  collecting : List Nat

namespace OverlayNode

variable (d : OverlayNode)

def claims : Table Nat OverlayClaim := d.node.server.overlayClaims

/-- The node with another table of claims. -/
def withClaims (claims : Table Nat OverlayClaim) : OverlayNode :=
  { d with node := { d.node with server := { d.node.server with overlayClaims := claims } } }

/-- Save if there is something to save. -/
def saveIf (changed ok : Bool) : OverlayNode :=
  if changed then { d with node := saveCoordination d.node ok } else d

def expire : OverlayNode := { d with node := d.node.expire.1 }

end OverlayNode

open OverlayNode

/-- The refusals of the functions below. -/
inductive OverlayError where
  | zeroVNI
  | labRequired
  | listOwners
  | lease (err : LeaseError)
  | beingCollected (vni : Nat)
  | unproven (vni : Nat)
  | ownedBy (vni : Nat) (lab : String)
  | claimedBy (vni : Nat) (lab : String)
  | olderFence (vni : Nat) (lab : String)
  | adopting (vni : Nat)
  | notReserved (vni : Nat)
  | persist
  | persistAdopted
deriving DecidableEq, Repr

/-! ### Reserving -/

structure OverlayReservationRequest where
  lab : String
  fence : Fence
  vnis : List Nat

/-- What the environment adds to a reservation: the owners of the overlays on the
    node if they can be listed, the ownerless ones that are proved to be the
    lab's, and what becomes of the saves and of the aliases. -/
structure ReserveOutcomes where
  owners : Option (Table Nat String)
  proves : Nat → Bool
  expirySaved : Bool
  saved : Bool
  adopts : Nat → Bool
  reverts : Nat → Bool
  adoptionSaved : Bool
  rollbackSaved : Bool

/-- Each identifier once, in order. None of them may be zero. -/
def sortedVNIs (vnis : List Nat) : Option (List Nat) :=
  if 0 ∈ vnis then none else some (vnis.dedup.insertionSort (· ≤ ·))

/-- Why the overlays on the node stand against a reservation. -/
def ownerRefusal (owners : Table Nat String) (proves : Nat → Bool) (lab : String) (vni : Nat) :
    Option OverlayError :=
  match owners.lookup vni with
  | none => none
  | some owner =>
    if owner = lab then none
    else if owner = "" then (if proves vni then none else some (.unproven vni))
    else some (.ownedBy vni owner)

section

variable (d : OverlayNode) (lab : String) (fence : Fence) (claims : Table Nat OverlayClaim)
  (vni : Nat)

/-- Why the claims of the node stand against a reservation. -/
def claimRefusal (lab : String) (fence : Fence) (vni : Nat) : Option OverlayError :=
  match claims.lookup vni with
  | none => none
  | some claim =>
    if claim.lab ≠ lab then some (.claimedBy vni claim.lab)
    else if claim.live then none
    else if claim.generation ≠ fence.generation then some (.olderFence vni lab)
    else none

def reservationRefusal (owners : Table Nat String) (proves : Nat → Bool) (lab : String)
    (fence : Fence) (vni : Nat) : Option OverlayError :=
  if vni ∈ d.collecting then some (.beingCollected vni)
  else match ownerRefusal owners proves lab vni with
    | some err => some err
    | none => claimRefusal d.claims lab fence vni

/-- Nothing has to be written for the identifier. -/
def alreadyLive : Bool :=
  (claims.lookup vni).any fun claim => claim.live && claim.generation == fence.generation

/-- A live claim only gets the newer fence. -/
def reserveClaim (deadline : Time) (claims : Table Nat OverlayClaim)
    (vni : Nat) : Table Nat OverlayClaim :=
  let fresh : OverlayClaim :=
    { lab := lab, generation := fence.generation, untilAt := deadline, live := false }
  match claims.lookup vni with
  | none => claims.insert vni fresh
  | some claim =>
    if claim.live then claims.insert vni { claim with generation := fence.generation }
    else claims.insert vni fresh

/-- The claim of an overlay that was found on the node. -/
def adoptClaim : Table Nat OverlayClaim :=
  claims.insert vni { lab := lab, generation := fence.generation, untilAt := 0, live := true }

/-- Put a claim back as it was. -/
def putBackClaim (before claims : Table Nat OverlayClaim) (vni : Nat) : Table Nat OverlayClaim :=
  match before.lookup vni with
  | some claim => claims.insert vni claim
  | none => claims.erase vni

/-- Adopt overlays one after the other, up to the first that cannot be. -/
def adoptUpTo (lab : String) (fence : Fence) (adopts : Nat → Bool) :
    List Nat → Table Nat OverlayClaim → List Nat → Table Nat OverlayClaim × List Nat × Option Nat
  | [], claims, adopted => (claims, adopted, none)
  | vni :: rest, claims, adopted =>
    if adopts vni then
      adoptUpTo lab fence adopts rest (adoptClaim lab fence claims vni) (adopted ++ [vni])
    else (claims, adopted, some vni)

variable (vnis : List Nat) (ok : Bool)

/-- Put the claims of some identifiers back as they were. -/
def restoreOverlayClaimsLocked (before claims : Table Nat OverlayClaim) : Table Nat OverlayClaim :=
  vnis.foldl (putBackClaim before) claims

/-- The claim of an overlay whose alias is still the lab's. -/
def keepClaim : Table Nat OverlayClaim :=
  claims.insert vni
    { lab := lab, generation := ((claims.lookup vni).map (·.generation)).getD 0, untilAt := 0
      live := true }

/-- Undo the adoptions, the last one first. An overlay whose alias cannot be put
    back keeps its claim, all others have theirs put back. -/
def rollbackLegacyAdoptions (reverts : Nat → Bool) (adopted vnis : List Nat)
    (before claims : Table Nat OverlayClaim) : Table Nat OverlayClaim :=
  let kept := adopted.filter fun vni => !reverts vni
  restoreOverlayClaimsLocked (vnis.filter (· ∉ kept)) before
    (kept.reverse.foldl (keepClaim lab) claims)

/-- Stamp the ownerless overlays that were proved to be the lab's. A failed save
    leaves the claims, for the aliases are there. -/
def adoptOverlays (before : Table Nat OverlayClaim) (lab : String) (fence : Fence)
    (vnis legacy : List Nat) (o : ReserveOutcomes) : OverlayNode × Option OverlayError :=
  match adoptUpTo lab fence o.adopts legacy d.claims [] with
  | (claims, adopted, some vni) =>
    ((d.withClaims (rollbackLegacyAdoptions lab o.reverts adopted vnis before
      claims)).saveIf true o.rollbackSaved, some (.adopting vni))
  | (claims, adopted, none) =>
    if adopted ≠ [] ∧ o.adoptionSaved = false then (d.withClaims claims, some .persistAdopted)
    else ((d.withClaims claims).saveIf (adopted ≠ []) true, none)

/-- The ownerless overlays among some. -/
def legacyVNIs (owners : Table Nat String) (vnis : List Nat) : List Nat :=
  vnis.filter fun vni => owners.lookup vni = some ""

/-- Write a reservation that nothing stands against. If it cannot be saved, what was
    written is put back. -/
def writeReservation (changed : Bool) (owners : Table Nat String) (lab : String) (fence : Fence)
    (vnis : List Nat) (o : ReserveOutcomes) : OverlayNode × Option OverlayError :=
  let deadline := ((d.node.server.mutations.lookup lab).map (·.untilAt)).getD 0
  let changed := changed || vnis.any fun vni => !alreadyLive fence d.claims vni
  let written := vnis.foldl (reserveClaim lab fence deadline) d.claims
  if changed && !o.saved then
    (d.withClaims (restoreOverlayClaimsLocked vnis d.claims written), some .persist)
  else
    adoptOverlays ((d.withClaims written).saveIf changed true) d.claims lab fence vnis
      (legacyVNIs owners vnis) o

def reserveOverlays (req : OverlayReservationRequest) (o : ReserveOutcomes) :
    OverlayNode × Option OverlayError :=
  match sortedVNIs req.vnis with
  | none => (d, some .zeroVNI)
  | some vnis =>
    if req.lab = "" then (d, some .labRequired)
    else match o.owners with
      | none => (d, some .listOwners)
      | some owners =>
        match fenceError d.expire.node.server req.lab req.fence d.node.now with
        | some err =>
          (d.expire.saveIf d.node.expire.2 o.expirySaved, some (.lease err))
        | none =>
          match vnis.findSome?
            (reservationRefusal d.expire owners o.proves req.lab req.fence) with
          | some err => (d.expire, some err)
          | none =>
            writeReservation d.expire d.node.expire.2 owners req.lab req.fence vnis o

/-- Note that reserved overlays are live. What was noted before a refusal stays. -/
def promoteClaims (lab : String) (fence : Fence) :
    List Nat → Table Nat OverlayClaim → Table Nat OverlayClaim × Option OverlayError
  | [], claims => (claims, none)
  | vni :: rest, claims =>
    match claims.lookup vni with
    | none => (claims, some (.notReserved vni))
    | some claim =>
      if claim.lab ≠ lab ∨ claim.generation ≠ fence.generation then
        (claims, some (.notReserved vni))
      else if claim.live then promoteClaims lab fence rest claims
      else
        promoteClaims lab fence rest
          (claims.insert vni { claim with live := true, untilAt := 0 })

def promoteOverlayReservations : OverlayNode × Option OverlayError :=
  match fenceError d.node.server lab fence d.node.now with
  | some err => (d, some (.lease err))
  | none =>
    let changed := vnis.any fun vni => (d.claims.lookup vni).any fun claim => !claim.live
    match promoteClaims lab fence vnis d.claims with
    | (claims, some err) => (d.withClaims claims, some err)
    | (claims, none) =>
      ((d.withClaims claims).saveIf changed ok,
        if changed && !ok then some .persist else none)

/-! ### Giving claims up and taking them back -/

/-- Drop the claims of a lab: the ones that are named, or all if none is. -/
def releaseOverlayClaims : OverlayNode :=
  let dropped := fun vni (claim : OverlayClaim) =>
    claim.lab == lab && (vnis.isEmpty || vnis.contains vni)
  (d.withClaims (d.claims.filterMap fun vni claim => if dropped vni claim then none else some claim)
    ).saveIf (d.claims.any dropped) ok

/-- The end of a rollback: the reservations of the failed apply go, and the
    identifiers of the previous topology are the lab's. Neither the fence nor the
    claims that are there are looked at. -/
def restoreOverlayClaims (oldVNIs : List Nat) (ok : Bool) : OverlayNode :=
  let kept := d.claims.filterMap fun vni claim =>
    if reservedBy lab fence claim && !oldVNIs.contains vni then none else some claim
  (d.withClaims (oldVNIs.foldl (adoptClaim lab fence) kept)).saveIf true ok

/-- Forget a lab that was taken down, or put everything back. -/
def finishDestroyedLab : OverlayNode × Option OverlayError :=
  match fenceError d.node.server lab fence d.node.now with
  | some err => (d, some (.lease err))
  | none =>
    if ok then
      ({ d with node := saveCoordination { d.node with server := { d.node.server with
          overlayClaims := d.claims.filterMap fun _ claim =>
            if claim.lab = lab then none else some claim
          generations := d.node.server.generations.erase lab
          transactions := d.node.server.transactions.erase lab
          ephemeral := d.node.server.ephemeral.erase lab } } true }, none)
    else (d, some .persist)

/-! ### Collecting -/

/-- The objects of a lab may not be collected: because of the topology, a running
    operation or a hold, which the environment knows about, or by the record. -/
def labProtected (elsewhere : Bool) (lab : String) : Bool :=
  lab ≠ "" && (elsewhere || (d.node.server.transactions.lookup lab).isSome ||
    (d.node.server.mutations.lookup lab).any (fun lease => d.node.now < lease.untilAt) ||
    (d.node.server.generations.lookup lab).any (·.prepared ≠ "") ||
    d.claims.any fun _ claim => claim.lab == lab && !claimExpired d.node.now claim)

/-- Fence an identifier for removal. Any claim at all stands against it. -/
def beginOverlayCollection (owner : String) (elsewhere : Bool) : OverlayNode × Bool :=
  if vni ∈ d.collecting ∨ labProtected d elsewhere owner = true ∨ (d.claims.lookup vni).isSome then
    (d, false)
  else ({ d with collecting := vni :: d.collecting }, true)

/-- Drop the fence and the record of what was collected, unless that is another
    lab's. -/
def endOverlayCollection (owner : String) (ok : Bool) : OverlayNode :=
  let d := { d with collecting := d.collecting.filter (· ≠ vni) }
  match d.claims.lookup vni with
  | none => d
  | some claim =>
    if owner ≠ "" ∧ claim.lab ≠ owner then d
    else (d.withClaims (d.claims.erase vni)).saveIf true ok

/-- Drop the live claims of labs that nothing protects. -/
def gcReleaseStaleLiveClaims (guarded : List String) (eligible : List Nat)
    (ok : Bool) : OverlayNode :=
  let stale := fun vni (claim : OverlayClaim) =>
    claim.live && !guarded.contains claim.lab && eligible.contains vni
  (d.withClaims (d.claims.filterMap fun vni claim => if stale vni claim then none else some claim)
    ).saveIf (d.claims.any stale) ok

/-! ### The machine -/

/-- Everything that writes the table of claims, with what the environment adds. A
    lease operation is any but a restart. -/
inductive OverlayAction where
  | lease (op : LeaseOp) (running : op.restarts = false)
  | reserve (req : OverlayReservationRequest) (o : ReserveOutcomes)
  | promote (lab : String) (fence : Fence) (vnis : List Nat) (ok : Bool)
  | restore (lab : String) (fence : Fence) (oldVNIs : List Nat) (ok : Bool)
  | releaseClaims (lab : String) (vnis : List Nat) (ok : Bool)
  | destroy (lab : String) (fence : Fence) (ok : Bool)
  | beginCollection (vni : Nat) (owner : String) (elsewhere : Bool)
  | endCollection (vni : Nat) (owner : String) (ok : Bool)
  | releaseStale (guarded : List String) (eligible : List Nat) (ok : Bool)

def overlayStep : OverlayAction → OverlayNode
  | .lease op _ => { d with node := (leaseStep d.node op).1 }
  | .reserve req o => (reserveOverlays d req o).1
  | .promote lab fence vnis ok => (promoteOverlayReservations d lab fence vnis ok).1
  | .restore lab fence oldVNIs ok => restoreOverlayClaims d lab fence oldVNIs ok
  | .releaseClaims lab vnis ok => releaseOverlayClaims d lab vnis ok
  | .destroy lab fence ok => (finishDestroyedLab d lab fence ok).1
  | .beginCollection vni owner elsewhere => (beginOverlayCollection d vni owner elsewhere).1
  | .endCollection vni owner ok => endOverlayCollection d vni owner ok
  | .releaseStale guarded eligible ok => gcReleaseStaleLiveClaims d guarded eligible ok

/-- The actions as a machine. Nothing is observed. -/
def overlays : Machine OverlayNode OverlayAction Empty := ⟨fun d a => (overlayStep d a, [])⟩

/-- The lab an identifier is claimed for, by a live claim or one that has not
    expired. -/
def claimant : Option String :=
  (d.claims.lookup vni).bind fun claim =>
    if claimExpired d.node.now claim then none else some claim.lab

/-- A restoration takes nothing that is claimed for another lab. -/
def Respects : OverlayAction → Prop
  | .restore lab _ oldVNIs _ => ∀ vni ∈ oldVNIs, ∀ lab', claimant d vni = some lab' → lab' = lab
  | _ => True

end

/-! ### What the actions do to the claims -/

variable (claims : Table Nat OverlayClaim) (o : ReserveOutcomes)

namespace OverlayNode

variable (d : OverlayNode)

@[simp]
theorem claims_withClaims :
    (d.withClaims claims).claims = claims := rfl

@[simp]
theorem claims_saveIf (changed ok : Bool) : (d.saveIf changed ok).claims = d.claims := by
  cases changed with
  | false => rfl
  | true => simp [saveIf, claims]

theorem lookup_expire (vni : Nat) : d.expire.claims.lookup vni =
    (d.claims.lookup vni).bind fun claim =>
      if claimExpired d.node.now claim then none else some claim := by
  simp [expire, claims, Node.expire, expireCoordination]

end OverlayNode

/-- Every claim was there before, for the same lab. -/
def Descends (before after : Table Nat OverlayClaim) : Prop :=
  ∀ vni claim, after.lookup vni = some claim →
    ∃ claim', before.lookup vni = some claim' ∧ claim'.lab = claim.lab

theorem Descends.refl : Descends claims claims :=
  fun _ claim h => ⟨claim, h, rfl⟩

theorem Descends.trans {a b c : Table Nat OverlayClaim} (h : Descends a b) (h' : Descends b c) :
    Descends a c := by
  intro vni claim hclaim
  obtain ⟨claim', hclaim', hlab⟩ := h' vni claim hclaim
  obtain ⟨claim'', hclaim'', hlab'⟩ := h vni claim' hclaim'
  exact ⟨claim'', hclaim'', hlab'.trans hlab⟩

variable {claims : Table Nat OverlayClaim}

theorem descends_drop {p : Nat → OverlayClaim → Prop} [∀ vni claim, Decidable (p vni claim)] :
    Descends claims (claims.filterMap fun vni claim =>
      if p vni claim then none else some claim) :=
  fun _ claim h => ⟨claim, (Table.lookup_drop.mp h).1, rfl⟩

theorem descends_erase (claims : Table Nat OverlayClaim) (vni : Nat) :
    Descends claims (claims.erase vni) :=
  fun _ claim h => ⟨claim, (Table.lookup_erase_eq_some.mp h).2, rfl⟩

/-! ### The lease operations -/

section Lease

variable (n : Node)

theorem descends_leaseMove {n n' : Node} {granted : String → Option Fence}
    (h : LeaseMove n granted n') : Descends n.server.overlayClaims n'.server.overlayClaims := by
  cases h with
  | expire => exact descends_drop
  | save ok =>
    rw [server_saveCoordination]
    exact .refl _
  | tick d | issue holder token hnone httl | miss holder token ttl hnone => exact .refl _
  | extend hpass hlook hdeadline =>
    intro vni claim h
    rw [extendLease, Table.lookup_filterMap, bind_eq_some_iff] at h
    obtain ⟨claim', hlook, hkept⟩ := h
    refine ⟨claim', hlook, ?_⟩
    split_ifs at hkept
    · cases hkept
      rfl
    · cases hkept
      rfl
  | forget hpass => exact descends_drop

theorem descends_leaseStep (op : LeaseOp) (hop : op.restarts = false) :
    Descends n.server.overlayClaims (leaseStep n op).1.server.overlayClaims :=
  let ⟨_, hmoves⟩ := leaseMoves_leaseStep n op hop
  hmoves.keeps (fun hmove h => Descends.trans h (descends_leaseMove hmove)) (.refl _)

end Lease

/-! ### Reserving and promoting -/

/-- The table is as it was but for some identifiers, and these are the lab's. -/
structure Contained (lab : String) (vnis : List Nat) (before after : Table Nat OverlayClaim) :
    Prop where
  outside : ∀ vni, vni ∉ vnis → after.lookup vni = before.lookup vni
  inside : ∀ vni ∈ vnis, ∀ claim, after.lookup vni = some claim → claim.lab = lab

variable {vni : Nat} {claim : OverlayClaim}

section Contained

variable {lab : String} {fence : Fence} {vnis : List Nat} {before after : Table Nat OverlayClaim}
  {adopted legacy : List Nat}

section

variable (h : Contained lab vnis before after)

include h

theorem Contained.write {after' : Table Nat OverlayClaim} (hvni : vni ∈ vnis)
    (hother : ∀ v, v ≠ vni → after'.lookup v = after.lookup v)
    (hself : ∀ claim, after'.lookup vni = some claim → claim.lab = lab) :
    Contained lab vnis before after' := by
  refine ⟨fun v hv => ?_, fun v hv c hc => ?_⟩
  · rw [hother v fun heq => hv (heq ▸ hvni), h.outside v hv]
  · by_cases heq : v = vni
    · exact hself c (heq ▸ hc)
    · exact h.inside v hv c (hother v heq ▸ hc)

theorem Contained.insert (hvni : vni ∈ vnis) (hclaim : claim.lab = lab) :
    Contained lab vnis before (after.insert vni claim) :=
  h.write hvni (fun _ => lookup_insert_ne) fun c hc => by
    rw [lookup_insert, some.injEq] at hc
    rw [← hc, hclaim]

theorem Contained.erase (hvni : vni ∈ vnis) : Contained lab vnis before (after.erase vni) :=
  h.write hvni (fun _ => lookup_erase_ne) fun _ hc => nomatch (lookup_erase ..).symm.trans hc

theorem Contained.foldl {f : Table Nat OverlayClaim → Nat → Table Nat OverlayClaim}
    (hf : ∀ claims, Contained lab vnis before claims → ∀ vni ∈ vnis,
      Contained lab vnis before (f claims vni))
    {part : List Nat} (hpart : ∀ vni ∈ part, vni ∈ vnis) :
    Contained lab vnis before (part.foldl f after) := by
  exact foldlRecOn part f h fun claims hclaims vni hvni =>
    hf claims hclaims vni (hpart vni hvni)

theorem Contained.reserveClaim (deadline : Time) (hvni : vni ∈ vnis) :
    Contained lab vnis before (reserveClaim lab fence deadline after vni) := by
  fun_cases Agent.reserveClaim with
  | case2 claim hlook => exact h.insert hvni (h.inside vni hvni claim hlook)
  | _ => exact h.insert hvni rfl

theorem Contained.adoptUpTo (fence : Fence) (adopts : Nat → Bool)
    (hlegacy : ∀ vni ∈ legacy, vni ∈ vnis) (hadopted : ∀ vni ∈ adopted, vni ∈ vnis) :
    Contained lab vnis before (adoptUpTo lab fence adopts legacy after adopted).1 ∧
      ∀ vni ∈ (adoptUpTo lab fence adopts legacy after adopted).2.1, vni ∈ vnis := by
  induction legacy generalizing after adopted with
  | nil => exact ⟨h, hadopted⟩
  | cons vni rest ih =>
    obtain ⟨hvni, hrest⟩ := forall_mem_cons.mp hlegacy
    unfold Agent.adoptUpTo
    split
    · exact ih (h.insert hvni rfl) hrest
        (forall_mem_append.mpr ⟨hadopted, by simpa using hvni⟩)
    · exact ⟨h, hadopted⟩

variable (hown : Contained lab vnis before before)

include hown

theorem Contained.putBackClaim (hvni : vni ∈ vnis) :
    Contained lab vnis before (putBackClaim before after vni) := by
  unfold Agent.putBackClaim
  cases hlook : before.lookup vni with
  | none => exact h.erase hvni
  | some claim => exact h.insert hvni (hown.inside vni hvni claim hlook)

theorem Contained.restore {part : List Nat} (hpart : ∀ vni ∈ part, vni ∈ vnis) :
    Contained lab vnis before (restoreOverlayClaimsLocked part before after) :=
  h.foldl (fun _ hclaims _ hvni => hclaims.putBackClaim hown hvni) hpart

theorem Contained.rollback (reverts : Nat → Bool) (hadopted : ∀ vni ∈ adopted, vni ∈ vnis) :
    Contained lab vnis before
      (rollbackLegacyAdoptions lab reverts adopted vnis before after) := by
  have hkept : ∀ vni ∈ (adopted.filter fun vni => !reverts vni).reverse, vni ∈ vnis :=
    fun vni hvni => hadopted vni (mem_filter.mp (mem_reverse.mp hvni)).1
  have hkeep : ∀ claims, Contained lab vnis before claims → ∀ vni ∈ vnis,
      Contained lab vnis before (keepClaim lab claims vni) :=
    fun _ hclaims _ hvni => hclaims.insert hvni rfl
  exact (h.foldl hkeep hkept).restore hown fun vni hvni => (mem_filter.mp hvni).1

end

variable {d : OverlayNode}

theorem contained_adoptOverlays (hlegacy : ∀ vni ∈ legacy, vni ∈ vnis)
    (hown : Contained lab vnis before before) (h : Contained lab vnis before d.claims) :
    Contained lab vnis before (adoptOverlays d before lab fence vnis legacy o).1.claims := by
  obtain ⟨hadopted, hmem⟩ :=
    h.adoptUpTo fence o.adopts hlegacy fun vni (hvni : vni ∈ []) => absurd hvni not_mem_nil
  unfold adoptOverlays
  split
  · next claims adopted vni heq =>
      rw [heq] at hadopted hmem
      rw [claims_saveIf, claims_withClaims]
      exact hadopted.rollback hown o.reverts hmem
  · next claims adopted heq =>
      rw [heq] at hadopted
      split
      · exact hadopted
      · rw [claims_saveIf, claims_withClaims]
        exact hadopted

variable {owners : Table Nat String}

theorem contained_writeReservation {changed : Bool} (hown : Contained lab vnis d.claims d.claims) :
    Contained lab vnis d.claims (writeReservation d changed owners lab fence vnis o).1.claims := by
  have hwritten : ∀ deadline, Contained lab vnis d.claims
      (vnis.foldl (reserveClaim lab fence deadline) d.claims) := fun deadline =>
    hown.foldl (fun claims hclaims vni hvni => hclaims.reserveClaim deadline hvni)
      (fun _ hvni => hvni)
  unfold writeReservation
  simp only
  split
  · exact (hwritten _).restore hown fun _ hvni => hvni
  · refine contained_adoptOverlays o (fun vni hvni => (mem_filter.mp hvni).1) hown ?_
    rw [claims_saveIf, claims_withClaims]
    exact hwritten _

variable {proves : Nat → Bool}

theorem contained_of_unrefused
    (h : vnis.findSome? (reservationRefusal d owners proves lab fence) = none) :
    Contained lab vnis d.claims d.claims := by
  refine ⟨fun _ _ => rfl, fun vni hvni claim hlook => ?_⟩
  have hnone := findSome?_eq_none_iff.mp h vni hvni
  by_contra hlab
  have hclaim : claimRefusal d.claims lab fence vni = some (.claimedBy vni claim.lab) := by
    simp [claimRefusal, hlook, hlab]
  revert hnone
  fun_cases reservationRefusal with
  | case3 => exact fun hnone => nomatch hclaim.symm.trans hnone
  | _ => nofun

theorem not_collecting_of_unrefused
    (h : vnis.findSome? (reservationRefusal d owners proves lab fence) = none) :
    ∀ vni ∈ vnis, vni ∉ d.collecting := by
  intro vni hvni hcollecting
  have hnone := findSome?_eq_none_iff.mp h vni hvni
  rw [reservationRefusal, if_pos hcollecting] at hnone
  cases hnone

theorem reserveOverlays_cases (d : OverlayNode) (req : OverlayReservationRequest)
    (o : ReserveOutcomes) :
    (reserveOverlays d req o).1 = d ∨
      ∃ vnis, (∀ vni ∈ vnis, vni ∉ d.collecting) ∧
        Contained req.lab vnis d.expire.claims d.expire.claims ∧
        Contained req.lab vnis d.expire.claims (reserveOverlays d req o).1.claims := by
  have hnothing : Contained req.lab [] d.expire.claims d.expire.claims :=
    ⟨fun _ _ => rfl, nofun⟩
  have hnone : ∀ vni ∈ ([] : List Nat), vni ∉ d.collecting := nofun
  fun_cases reserveOverlays d req o with
  | case1 | case2 | case3 => exact .inl rfl
  | case4 => exact .inr ⟨[], hnone, hnothing, by rw [claims_saveIf]; exact hnothing⟩
  | case5 => exact .inr ⟨[], hnone, hnothing, hnothing⟩
  | case6 vnis _ _ _ _ _ hrefusal =>
    have hown := contained_of_unrefused hrefusal
    have hfree : ∀ vni ∈ vnis, vni ∉ d.expire.collecting :=
      not_collecting_of_unrefused hrefusal
    exact .inr ⟨vnis, hfree, hown, contained_writeReservation o hown⟩

/-- Every claim was there before, or is a live one in the place of one for the same lab. -/
def Promotes (before after : Table Nat OverlayClaim) : Prop :=
  ∀ vni claim, after.lookup vni = some claim → before.lookup vni = some claim ∨
    claim.live = true ∧ ∃ claim', before.lookup vni = some claim' ∧ claim'.lab = claim.lab

theorem promotes_promoteClaims (lab : String) (fence : Fence) (vnis : List Nat)
    (claims : Table Nat OverlayClaim) :
    Promotes claims (promoteClaims lab fence vnis claims).1 := by
  fun_induction promoteClaims lab fence vnis claims with
  | case4 _ _ _ _ _ _ _ ih => exact ih
  | case5 vni rest claims claim hlook _ _ ih =>
    intro v c hc
    by_cases hv : v = vni
    · subst hv
      refine .inr ?_
      rcases ih v c hc with hc | ⟨hlive, claim', hc, hlab⟩
      · rw [lookup_insert, some.injEq] at hc
        exact ⟨hc ▸ rfl, claim, hlook, hc ▸ rfl⟩
      · rw [lookup_insert, some.injEq] at hc
        exact ⟨hlive, claim, hlook, (congrArg OverlayClaim.lab hc).trans hlab⟩
    · simpa only [lookup_insert_ne hv] using ih v c hc
  | _ => exact fun _ _ => .inl

theorem Promotes.descends (h : Promotes before after) : Descends before after :=
  fun vni claim hlook => (h vni claim hlook).elim (⟨claim, ·, rfl⟩) And.right

end Contained

/-! ### Who holds an identifier -/

section Keeps

variable {d d' : OverlayNode} {lab : String}

theorem claimant_eq_some : claimant d vni = some lab ↔
    ∃ claim, d.claims.lookup vni = some claim ∧ claimExpired d.node.now claim = false ∧
      claim.lab = lab := by
  simp only [claimant, bind_eq_some_iff]
  constructor
  · rintro ⟨claim, hlook, h⟩
    split_ifs at h with hexpired
    cases h
    exact ⟨claim, hlook, by simpa using hexpired, rfl⟩
  · rintro ⟨claim, hlook, hexpired, rfl⟩
    exact ⟨claim, hlook, by simp [hexpired]⟩

theorem keeps_of_descends (h : Descends d.claims d'.claims) :
    Machine.Keeps claimant d d' := by
  intro vni a b ha hb
  obtain ⟨claim, hlook, -, rfl⟩ := claimant_eq_some.mp ha
  obtain ⟨claim', hlook', -, rfl⟩ := claimant_eq_some.mp hb
  obtain ⟨claim'', hlook'', hlab⟩ := h vni claim' hlook'
  obtain rfl := some.inj (hlook.symm.trans hlook'')
  exact hlab

theorem keeps_iff_true (h : Descends d.claims d'.claims) : Machine.Keeps claimant d d' ↔ True :=
  iff_of_true (keeps_of_descends h) trivial

theorem lookup_expire_of_claimed (hlook : d.claims.lookup vni = some claim)
    (hexpired : claimExpired d.node.now claim = false) :
    d.expire.claims.lookup vni = some claim := by
  rw [d.lookup_expire, hlook, bind_some, hexpired]
  rfl

theorem keeps_reserve (req : OverlayReservationRequest) (o : ReserveOutcomes) :
    Machine.Keeps claimant d (reserveOverlays d req o).1 := by
  rcases reserveOverlays_cases d req o with heq | ⟨vnis, -, hown, hafter⟩
  · rw [heq]
    exact keeps_of_descends (.refl _)
  · intro vni a b ha hb
    obtain ⟨claim, hlook, hexpired, rfl⟩ := claimant_eq_some.mp ha
    obtain ⟨claim', hlook', -, rfl⟩ := claimant_eq_some.mp hb
    have hthere := lookup_expire_of_claimed hlook hexpired
    by_cases hvni : vni ∈ vnis
    · rw [hown.inside vni hvni claim hthere, hafter.inside vni hvni claim' hlook']
    · rw [hafter.outside vni hvni, hthere] at hlook'
      cases hlook'
      rfl

theorem descends_promote (lab : String) (fence : Fence) (vnis : List Nat) (ok : Bool) :
    Descends d.claims (promoteOverlayReservations d lab fence vnis ok).1.claims := by
  have h := (promotes_promoteClaims lab fence vnis d.claims).descends
  fun_cases promoteOverlayReservations with
  | case1 => exact .refl _
  | case2 _ claims err heq =>
    rw [heq] at h
    exact h
  | case3 _ _ claims heq =>
    rw [heq] at h
    rw [claims_saveIf]
    exact h

theorem descends_releaseOverlayClaims (lab : String) (vnis : List Nat) (ok : Bool) :
    Descends d.claims (releaseOverlayClaims d lab vnis ok).claims := by
  simp only [releaseOverlayClaims, claims_saveIf, claims_withClaims]
  exact descends_drop

theorem descends_finishDestroyedLab (lab : String) (fence : Fence) (ok : Bool) :
    Descends d.claims (finishDestroyedLab d lab fence ok).1.claims := by
  fun_cases finishDestroyedLab with
  | case2 => exact @descends_drop d.claims (fun _ claim => claim.lab = lab) _
  | _ => exact .refl _

theorem descends_endOverlayCollection (vni : Nat) (owner : String) (ok : Bool) :
    Descends d.claims (endOverlayCollection d vni owner ok).claims := by
  fun_cases endOverlayCollection with
  | case3 =>
    rw [claims_saveIf]
    exact descends_erase d.claims vni
  | _ => exact .refl _

theorem descends_gcReleaseStaleLiveClaims (guarded : List String) (eligible : List Nat)
    (ok : Bool) : Descends d.claims (gcReleaseStaleLiveClaims d guarded eligible ok).claims := by
  simp only [gcReleaseStaleLiveClaims, claims_saveIf, claims_withClaims]
  exact descends_drop

theorem lookup_foldl_adoptClaim {fence : Fence} (claims : Table Nat OverlayClaim)
    (vnis : List Nat) (vni : Nat) : (vnis.foldl (adoptClaim lab fence) claims).lookup vni =
      if vni ∈ vnis then
        some { lab := lab, generation := fence.generation, untilAt := 0, live := true }
      else claims.lookup vni :=
  Table.lookup_foldl_writes (fun _ _ => some _) (fun _ _ => lookup_insert _)
    (fun _ _ _ hne => lookup_insert_ne hne) (fun _ _ => rfl) vnis claims vni

theorem lookup_restore (lab : String) (fence : Fence) (oldVNIs : List Nat) (ok : Bool)
    (vni : Nat) : (restoreOverlayClaims d lab fence oldVNIs ok).claims.lookup vni =
      if vni ∈ oldVNIs then
        some { lab := lab, generation := fence.generation, untilAt := 0, live := true }
      else (d.claims.lookup vni).bind fun claim =>
        if reservedBy lab fence claim then none else some claim := by
  rw [restoreOverlayClaims, claims_saveIf, claims_withClaims,
    lookup_foldl_adoptClaim]
  by_cases hmem : vni ∈ oldVNIs
  · simp [hmem]
  · simp [hmem]

theorem keeps_restore_iff (lab : String) (fence : Fence) (oldVNIs : List Nat) (ok : Bool) :
    Machine.Keeps claimant d (restoreOverlayClaims d lab fence oldVNIs ok) ↔
      ∀ vni ∈ oldVNIs, ∀ lab', claimant d vni = some lab' → lab' = lab := by
  constructor
  · intro h vni hmem lab' hclaimed
    refine h vni lab' lab hclaimed (claimant_eq_some.mpr
      ⟨{ lab := lab, generation := fence.generation, untilAt := 0, live := true }, ?_, ?_, ?_⟩)
    · rw [lookup_restore, if_pos hmem]
    · rfl
    · rfl
  · intro h vni a b ha hb
    obtain ⟨claim', hlook', -, rfl⟩ := claimant_eq_some.mp hb
    rw [lookup_restore] at hlook'
    by_cases hmem : vni ∈ oldVNIs
    · rw [if_pos hmem, some.injEq] at hlook'
      rw [h vni hmem a ha, ← hlook']
    · rw [if_neg hmem, bind_eq_some_iff] at hlook'
      obtain ⟨claim, hlook, hkept⟩ := hlook'
      obtain ⟨claim₀, hlook₀, -, rfl⟩ := claimant_eq_some.mp ha
      obtain rfl := some.inj (hlook.symm.trans hlook₀)
      split_ifs at hkept
      cases hkept
      rfl

/-- A restoration that takes a claim from another lab is the only action that lets
    an identifier change hands. -/
theorem keeps_iff_respects (d : OverlayNode) (a : OverlayAction) :
    Machine.Keeps claimant d (overlayStep d a) ↔ Respects d a := by
  cases a with
  | lease op running => exact keeps_iff_true (descends_leaseStep d.node op running)
  | reserve req o => exact iff_of_true (keeps_reserve req o) trivial
  | promote lab fence vnis ok => exact keeps_iff_true (descends_promote lab fence vnis ok)
  | restore lab fence oldVNIs ok => exact keeps_restore_iff lab fence oldVNIs ok
  | releaseClaims lab vnis ok => exact keeps_iff_true (descends_releaseOverlayClaims lab vnis ok)
  | destroy lab fence ok => exact keeps_iff_true (descends_finishDestroyedLab lab fence ok)
  | beginCollection vni owner elsewhere =>
    refine keeps_iff_true ?_
    simp only [overlayStep, beginOverlayCollection]
    split_ifs
    · exact .refl _
    · exact .refl _
  | endCollection vni owner ok =>
    exact keeps_iff_true (descends_endOverlayCollection vni owner ok)
  | releaseStale guarded eligible ok =>
    exact keeps_iff_true (descends_gcReleaseStaleLiveClaims guarded eligible ok)

end Keeps

/-- In any interleaving of the actions, from any node, an identifier stays with the
    lab it is claimed for until it is unclaimed or expired, exactly if no rollback
    on the way restores a claim to an identifier that another lab holds. -/
theorem overlay_exclusive_iff (d : OverlayNode) (acts : List OverlayAction) :
    overlays.Exclusive claimant d acts ↔ overlays.Along Respects d acts := by
  rw [Machine.exclusive_iff_along]
  exact Machine.along_congr overlays (fun _ => True) (fun _ _ _ _ => trivial)
    (fun d a _ => keeps_iff_respects d a) trivial

/-! ### A rollback that takes an identifier -/

/-- An agent that starts without claims. Lab `a` is on the node, deployed with
    identifier 7 before there was a table. -/
def upgradedNode : OverlayNode where
  node := boot none 0 100 true
  collecting := []

/-- Nothing stands against a reservation and everything is saved. -/
def clearOutcomes : ReserveOutcomes where
  owners := some ∅
  proves := fun _ => false
  expirySaved := true
  saved := true
  adopts := fun _ => true
  reverts := fun _ => true
  adoptionSaved := true
  rollbackSaved := true

/-- Lab `a` is applied without identifier 7 and its overlay goes. Lab `b` reserves
    the identifier and goes live with it. -/
def takenOver : List OverlayAction :=
  [.lease (.acquire ⟨"a", "alice", 60⟩ (some "t") true) rfl,
   .lease (.acquire ⟨"b", "bob", 60⟩ (some "u") true) rfl,
   .reserve ⟨"b", ⟨"u", 1⟩, [7]⟩ clearOutcomes,
   .promote "b" ⟨"u", 1⟩ [7] true]

/-- The apply of `a` fails, and its rollback claims identifier 7 while `b` is live
    with it. -/
theorem rollback_takes_live_overlay :
    ¬ overlays.Exclusive claimant upgradedNode (takenOver ++ [.restore "a" ⟨"t", 1⟩ [7] true]) := by
  intro h
  have hsteps := (Machine.exclusive_iff_along _ _).mp h
  have hlast := (Machine.along_append overlays _ _ takenOver _).mp hsteps
  have hb : claimant (overlays.run upgradedNode takenOver) 7 = some "b" := by decide +kernel
  have ha : claimant (overlayStep (overlays.run upgradedNode takenOver)
      (.restore "a" ⟨"t", 1⟩ [7] true)) 7 = some "a" := by decide +kernel
  exact absurd (hlast.2.1 7 "b" "a" hb ha) (by decide)

end Agent

end Twinet
