import Twinet.Agent.OverlayClaims

/-!
# Collection and Reservation

A collector fences an overlay identifier, removes the overlay from the kernel
without holding the lock of the node, and drops the fence. Whatever happens in
between, the identifier must not be reserved, and what the collector deletes at the
end must not be another lab's claim.

The collectors at work are part of the state here. One of them starts when its
fence is granted, ends with the identifier and the owner it started with, and does
not end twice. Between the two any of the other actions of `overlays` may happen
any number of times, and so may a crash, which takes the fences and the collectors
with it. The restoration of claims at the end of a rollback is left out: it is no
reservation and asks nobody.

## Main definitions

* `collections`: A node and the collectors at work on it.
* `deletions`: What the end of a collection deletes.
* `Fenced`: What is being collected is fenced and claimed by nobody.

## Theorems

* `lookup_eq_none_of_ordinary`: No ordinary action claims what is fenced.
* `collection_excludes_reservation`: Collection and reservation exclude each other.
-/

namespace Twinet

namespace Agent

open List
open OverlayNode

/-- A node and the collectors at work on it, each with its identifier and the owner
    it found. -/
structure Collection where
  node : OverlayNode
  atWork : List (Nat × String)

/-- Any action but those of a collector and a restoration. -/
def OverlayAction.ordinary : OverlayAction → Bool
  | restore .. | beginCollection .. | endCollection .. => false
  | _ => true

inductive CollectionAction where
  | start (vni : Nat) (owner : String) (elsewhere : Bool)
  | finish (vni : Nat) (owner : String) (ok : Bool)
  | other (a : OverlayAction) (ordinary : a.ordinary = true)
  | crash (ok : Bool)

/-- A claim that was deleted by a collector, and the owner the collector was at work
    for. -/
structure Deletion where
  vni : Nat
  lab : String
  owner : String
deriving DecidableEq, Repr

/-- What the end of a collection deletes. -/
def deletions (d : OverlayNode) (vni : Nat) (owner : String) (ok : Bool) : List Deletion :=
  match d.claims.lookup vni with
  | none => []
  | some claim =>
    if ((endOverlayCollection d vni owner ok).claims.lookup vni).isSome then []
    else [{ vni := vni, lab := claim.lab, owner := owner }]

def collectionStep (c : Collection) : CollectionAction → Collection × List Deletion
  | .start vni owner elsewhere =>
    match beginOverlayCollection c.node vni owner elsewhere with
    | (node, true) => ({ node := node, atWork := (vni, owner) :: c.atWork }, [])
    | (node, false) => ({ c with node := node }, [])
  | .finish vni owner ok =>
    -- only a collector that is at work has an end to come to
    if (vni, owner) ∈ c.atWork then
      ({ node := endOverlayCollection c.node vni owner ok
         atWork := c.atWork.erase (vni, owner) }, deletions c.node vni owner ok)
    else (c, [])
  | .other a _ => ({ c with node := overlayStep c.node a }, [])
  | .crash ok =>
    ({ node := { node := restart c.node.node ok, collecting := [] }, atWork := [] }, [])

def collections : Machine Collection CollectionAction Deletion := ⟨collectionStep⟩

/-- What the collectors are at work on is fenced, each identifier by one of them,
    and what is fenced is not claimed. -/
structure Fenced (c : Collection) : Prop where
  fenced : ∀ p ∈ c.atWork, p.1 ∈ c.node.collecting
  once : (c.atWork.map Prod.fst).Nodup
  unclaimed : ∀ vni ∈ c.node.collecting, c.node.claims.lookup vni = none

/-! ### The other actions -/

variable {vni : Nat}

section Ordinary

variable (d : OverlayNode)

@[simp]
theorem OverlayNode.collecting_saveIf (changed ok : Bool) :
    (d.saveIf changed ok).collecting = d.collecting := by
  cases changed with
  | false | true => rfl

theorem collecting_adoptOverlays (before : Table Nat OverlayClaim) (lab : String) (fence : Fence)
    (vnis legacy : List Nat) (o : ReserveOutcomes) :
    (adoptOverlays d before lab fence vnis legacy o).1.collecting = d.collecting := by
  fun_cases adoptOverlays with
  | case2 => rfl
  | _ => exact collecting_saveIf _ _ _

theorem collecting_reserveOverlays (req : OverlayReservationRequest) (o : ReserveOutcomes) :
    (reserveOverlays d req o).1.collecting = d.collecting := by
  fun_cases reserveOverlays d req o with
  | case4 =>
    rw [collecting_saveIf]
    rfl
  | case6 =>
    unfold writeReservation
    simp only
    split_ifs
    · rfl
    · rw [collecting_adoptOverlays, collecting_saveIf]
      rfl
  | _ => rfl

variable {a : OverlayAction}

theorem collecting_overlayStep (ha : a.ordinary = true) :
    (overlayStep d a).collecting = d.collecting := by
  cases a with
  | lease op running => rfl
  | reserve req o => exact collecting_reserveOverlays d req o
  | promote lab fence vnis ok =>
    rw [overlayStep]
    fun_cases promoteOverlayReservations with
    | case3 => exact collecting_saveIf _ _ _
    | _ => rfl
  | releaseClaims lab vnis ok | releaseStale guarded eligible ok =>
    exact collecting_saveIf _ _ _
  | destroy lab fence ok =>
    rw [overlayStep]
    fun_cases finishDestroyedLab <;> rfl
  | restore lab fence oldVNIs ok | beginCollection vni owner elsewhere
  | endCollection vni owner ok => cases ha

variable {d}

theorem lookup_eq_none_of_descends {claims claims' : Table Nat OverlayClaim}
    (h : Descends claims claims') (hnone : claims.lookup vni = none) :
    claims'.lookup vni = none := by
  cases hlook : claims'.lookup vni with
  | none => rfl
  | some claim =>
    obtain ⟨claim', hlook', -⟩ := h vni claim hlook
    rw [hnone] at hlook'
    cases hlook'

/-- What is fenced and not claimed is not claimed by anything but a restoration. A
    reservation sees the fence, and all other actions only rewrite claims. -/
theorem lookup_eq_none_of_ordinary (ha : a.ordinary = true) (hvni : vni ∈ d.collecting)
    (hnone : d.claims.lookup vni = none) : (overlayStep d a).claims.lookup vni = none := by
  cases a with
  | lease op running =>
    exact lookup_eq_none_of_descends (descends_leaseStep d.node op running) hnone
  | reserve req o =>
    rcases reserveOverlays_cases d req o with heq | ⟨vnis, hfree, -, hafter⟩
    · rw [overlayStep, heq]
      exact hnone
    · refine (hafter.outside vni fun hmem => hfree vni hmem hvni).trans ?_
      rw [d.lookup_expire, hnone, Option.bind_none]
  | promote lab fence vnis ok =>
    exact lookup_eq_none_of_descends (descends_promote lab fence vnis ok) hnone
  | releaseClaims lab vnis ok =>
    exact lookup_eq_none_of_descends (descends_releaseOverlayClaims lab vnis ok) hnone
  | destroy lab fence ok =>
    exact lookup_eq_none_of_descends (descends_finishDestroyedLab lab fence ok) hnone
  | releaseStale guarded eligible ok =>
    exact lookup_eq_none_of_descends (descends_gcReleaseStaleLiveClaims guarded eligible ok) hnone
  | restore lab fence oldVNIs ok | beginCollection vni owner elsewhere
  | endCollection vni owner ok => cases ha

end Ordinary

/-! ### The collectors -/

section Collectors

variable {c : Collection}

theorem Fenced.start (h : Fenced c) (vni : Nat) (owner : String) (elsewhere : Bool) :
    Fenced (collectionStep c (.start vni owner elsewhere)).1 := by
  simp only [collectionStep, beginOverlayCollection]
  by_cases hrefused : vni ∈ c.node.collecting ∨ labProtected c.node elsewhere owner = true ∨
      (c.node.claims.lookup vni).isSome
  · rw [if_pos hrefused]
    exact h
  · rw [if_neg hrefused]
    obtain ⟨hfree, -, hclaim⟩ := not_or.mp hrefused |>.imp_right not_or.mp
    refine ⟨?_, ?_, ?_⟩
    · exact forall_mem_cons.mpr
        ⟨mem_cons_self, fun p hp => mem_cons_of_mem vni (h.fenced p hp)⟩
    · -- nobody else is at work on it, for then it would be fenced
      refine nodup_cons.mpr ⟨fun hmem => hfree ?_, h.once⟩
      obtain ⟨p, hp, rfl⟩ := mem_map.mp hmem
      exact h.fenced p hp
    · exact forall_mem_cons.mpr ⟨Option.not_isSome_iff_eq_none.mp hclaim, h.unclaimed⟩

theorem endOverlayCollection_of_unclaimed {d : OverlayNode} (h : d.claims.lookup vni = none)
    (owner : String) (ok : Bool) :
    endOverlayCollection d vni owner ok =
      { d with collecting := d.collecting.filter (· ≠ vni) } := by
  have hlook : ({ d with collecting := d.collecting.filter (· ≠ vni) } :
      OverlayNode).claims.lookup vni = none := h
  simp only [endOverlayCollection, hlook]

theorem Fenced.finish (h : Fenced c) (vni : Nat) (owner : String) (ok : Bool) :
    Fenced (collectionStep c (.finish vni owner ok)).1 ∧
      (collectionStep c (.finish vni owner ok)).2 = [] := by
  by_cases hmem : (vni, owner) ∈ c.atWork
  · have hnone := h.unclaimed vni (h.fenced _ hmem)
    simp only [collectionStep, if_pos hmem, endOverlayCollection_of_unclaimed hnone, deletions,
      hnone, and_true]
    have hperm := perm_cons_erase hmem
    have honce : ((vni, owner) :: c.atWork.erase (vni, owner)).map Prod.fst |>.Nodup :=
      (hperm.map Prod.fst).nodup_iff.mp h.once
    obtain ⟨hnot, hrest⟩ := nodup_cons.mp honce
    refine ⟨fun p hp => ?_, hrest, fun v hv => h.unclaimed v (mem_filter.mp hv).1⟩
    -- the other collectors are at work on other identifiers
    refine mem_filter.mpr ⟨h.fenced p (mem_of_mem_erase hp), decide_eq_true ?_⟩
    intro heq
    exact hnot (mem_map.mpr ⟨p, hp, heq⟩)
  · simp only [collectionStep, if_neg hmem, and_true]
    exact h

theorem Fenced.step (h : Fenced c) (a : CollectionAction) :
    Fenced (collectionStep c a).1 ∧ (collectionStep c a).2 = [] := by
  cases a with
  | start vni owner elsewhere =>
    refine ⟨h.start vni owner elsewhere, ?_⟩
    simp only [collectionStep]
    split
    · rfl
    · rfl
  | finish vni owner ok => exact h.finish vni owner ok
  | other a ordinary =>
    have hsame := collecting_overlayStep c.node ordinary
    refine ⟨⟨fun p hp => ?_, h.once, fun vni hvni => ?_⟩, rfl⟩
    · simp only [collectionStep, hsame]
      exact h.fenced p hp
    · simp only [collectionStep, hsame] at hvni
      exact lookup_eq_none_of_ordinary ordinary hvni (h.unclaimed vni hvni)
  | crash ok =>
    refine ⟨⟨fun p hp => ?_, nodup_nil, fun vni hvni => ?_⟩, rfl⟩
    · cases hp
    · cases hvni

end Collectors

/-- In every interleaving of collectors, reservations and the other actions, for any
    labs and identifiers, from a node with any claims and no collector at work: no
    identifier that is being collected is claimed at all, and so the end of a
    collection deletes no claim, of another lab or otherwise. -/
theorem collection_excludes_reservation (n : Node) (acts : List CollectionAction) :
    (∀ vni owner, (vni, owner) ∈ (collections.run ⟨⟨n, []⟩, []⟩ acts).atWork →
      (collections.run ⟨⟨n, []⟩, []⟩ acts).node.claims.lookup vni = none) ∧
    collections.trace ⟨⟨n, []⟩, []⟩ acts = [] := by
  have hstart : Fenced ⟨⟨n, []⟩, []⟩ := ⟨nofun, nodup_nil, nofun⟩
  have hrun := collections.history_induction (fun hist c => hist = [] ∧ Fenced c)
    (fun hist c a h => ⟨by rw [h.1, nil_append]; exact (h.2.step a).2, (h.2.step a).1⟩)
    [] ⟨⟨n, []⟩, []⟩ acts ⟨rfl, hstart⟩
  rw [nil_append] at hrun
  exact ⟨fun vni owner hmem => hrun.2.unclaimed vni (hrun.2.fenced _ hmem), hrun.1⟩

-- what protects a claim is the fence: an end alone takes any lab's from under it
example : deletions (overlays.run upgradedNode takenOver) 7 "" true = [⟨7, "b", ""⟩] := by
  decide +kernel

end Agent

end Twinet
