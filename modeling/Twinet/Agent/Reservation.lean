import Mathlib.Data.List.Dedup
import Twinet.Agent.OverlayClaims

/-!
# All or Nothing

What a reservation leaves of the table of claims, for a failure at every point.

A reservation is checked before anything is written, so a conflict at any
identifier leaves the table as expiry left it. What is written is put back if it
cannot be saved. After that the ownerless overlays are adopted one by one. If one
of them cannot be, the ones before it are reverted, and an overlay whose alias
cannot be taken back keeps a live claim.

One failure is no undoing at all: if the adopted overlays cannot be saved, the
aliases stand and so do all the claims, and only the caller is told.

## Main definitions

* `AllOrNothing`: What an answer says about the claims.
* `Claimed`: What it says if it is a success.
* `unreverted`: The overlays that could not be taken back.

## Theorems

* `lookup_rollback`: What a rollback leaves.
* `reserve_all_or_nothing`: Every answer of a reservation says what it should.
* `unsaved_adoption_stands`: A failed reservation whose claim stands.
-/

namespace Twinet

namespace Agent

open List AList
open OverlayNode

/-- The overlays that are adopted before the first that cannot be, as far as their
    aliases cannot be put back. -/
def unreverted (owners : Table Nat String) (vnis : List Nat) (o : ReserveOutcomes) : List Nat :=
  ((legacyVNIs owners vnis).takeWhile o.adopts).filter fun vni => !o.reverts vni

/-- What a reservation makes of a claim. -/
def reservedClaim (lab : String) (fence : Fence) (deadline : Time) :
    Option OverlayClaim → OverlayClaim
  | none => { lab := lab, generation := fence.generation, untilAt := deadline, live := false }
  | some claim =>
    if claim.live then { claim with generation := fence.generation }
    else { lab := lab, generation := fence.generation, untilAt := deadline, live := false }

/-- The claim of an adopted overlay. -/
def adoptedClaim (lab : String) (fence : Fence) : OverlayClaim where
  lab := lab
  generation := fence.generation
  untilAt := 0
  live := true

/-- What a failed revert makes of a claim. -/
def keptClaim (lab : String) (held : Option OverlayClaim) : OverlayClaim where
  lab := lab
  generation := (held.map (·.generation)).getD 0
  untilAt := 0
  live := true

/-- Every identifier is the lab's under the fence, live or up to the deadline, and
    no other claim was touched. -/
structure Claimed (lab : String) (fence : Fence) (deadline : Time) (vnis : List Nat)
    (before after : Table Nat OverlayClaim) : Prop where
  inside : ∀ vni ∈ vnis, ∃ claim, after.lookup vni = some claim ∧ claim.lab = lab ∧
    claim.generation = fence.generation ∧ (claim.live = true ∨ claim.untilAt = deadline)
  outside : ∀ vni, vni ∉ vnis → after.lookup vni = before.lookup vni

/-- What an answer to a request says about the claims. A request that is not even
    looked at leaves the node alone. -/
def AllOrNothing (d : OverlayNode) (req : OverlayReservationRequest) (o : ReserveOutcomes) :
    OverlayNode × Option OverlayError → Prop
  | (after, none) | (after, some .persistAdopted) =>
    ∃ lease, d.expire.node.server.mutations.lookup req.lab = some lease ∧
      Claimed req.lab req.fence lease.untilAt req.vnis d.expire.claims after.claims
  | (after, some .zeroVNI) | (after, some .labRequired) | (after, some .listOwners) => after = d
  | (after, some (.adopting _)) =>
    ∃ vnis owners, sortedVNIs req.vnis = some vnis ∧ o.owners = some owners ∧
      ∀ vni, after.claims.lookup vni =
        if vni ∈ unreverted owners vnis o then some (adoptedClaim req.lab req.fence)
        else d.expire.claims.lookup vni
  | (after, some _) => ∀ vni, after.claims.lookup vni = d.expire.claims.lookup vni

/-! ### The loops -/

section Loops

variable {lab : String} {fence : Fence} {deadline : Time} (claims before : Table Nat OverlayClaim)

theorem lookup_reserveClaim (vni : Nat) :
    (reserveClaim lab fence deadline claims vni).lookup vni =
      some (reservedClaim lab fence deadline (claims.lookup vni)) := by
  unfold reservedClaim
  fun_cases reserveClaim with
  | case1 fresh hnone => simp [hnone, fresh]
  | case2 claim hsome hlive => simp [hsome, hlive]
  | case3 fresh claim hsome hlive => simp [hsome, hlive, fresh]

theorem lookup_reserveClaim_ne {vni vni' : Nat} (h : vni' ≠ vni) :
    (reserveClaim lab fence deadline claims vni).lookup vni' = claims.lookup vni' := by
  fun_cases reserveClaim <;> exact lookup_insert_ne h

theorem reservedClaim_again (held : Option OverlayClaim) :
    reservedClaim lab fence deadline (some (reservedClaim lab fence deadline held)) =
      reservedClaim lab fence deadline held := by
  cases held with
  | none => rfl
  | some claim =>
    cases hlive : claim.live with
    | true | false => simp [reservedClaim, hlive]

variable (vnis : List Nat)

theorem lookup_foldl_reserveClaim (vni : Nat) :
    (vnis.foldl (reserveClaim lab fence deadline) claims).lookup vni =
      if vni ∈ vnis then some (reservedClaim lab fence deadline (claims.lookup vni))
      else claims.lookup vni :=
  Table.lookup_foldl_writes (fun _ held => some (reservedClaim lab fence deadline held))
    (fun t k => lookup_reserveClaim t k) (fun t _ _ hne => lookup_reserveClaim_ne t hne)
    (fun _ held => congrArg some (reservedClaim_again held)) vnis claims vni

theorem lookup_foldl_keepClaim (vni : Nat) :
    (vnis.foldl (keepClaim lab) claims).lookup vni =
      if vni ∈ vnis then some (keptClaim lab (claims.lookup vni)) else claims.lookup vni :=
  Table.lookup_foldl_writes (fun _ held => some (keptClaim lab held))
    (fun _ _ => lookup_insert _) (fun _ _ _ hne => lookup_insert_ne hne)
    (fun _ _ => rfl) vnis claims vni

theorem lookup_restoreOverlayClaimsLocked (vni : Nat) :
    (restoreOverlayClaimsLocked vnis before claims).lookup vni =
      if vni ∈ vnis then before.lookup vni else claims.lookup vni := by
  refine Table.lookup_foldl_writes (fun k _ => before.lookup k) (fun t k => ?_)
    (fun t k k' hne => ?_) (fun _ _ => rfl) vnis claims vni
  · unfold putBackClaim
    cases before.lookup k with
    | none => exact lookup_erase _ _
    | some claim => exact lookup_insert _
  · unfold putBackClaim
    cases before.lookup k with
    | none => exact lookup_erase_ne hne
    | some claim => exact lookup_insert_ne hne

theorem adoptUpTo_eq (adopts : Nat → Bool) (legacy adopted : List Nat) :
    adoptUpTo lab fence adopts legacy claims adopted =
      ((legacy.takeWhile adopts).foldl (adoptClaim lab fence) claims,
        adopted ++ legacy.takeWhile adopts, legacy.find? fun vni => !adopts vni) := by
  induction legacy generalizing claims adopted with
  | nil => simp [adoptUpTo]
  | cons vni rest ih =>
    cases hadopts : adopts vni with
    | true =>
      simp [adoptUpTo, hadopts, ih]
    | false =>
      simp [adoptUpTo, hadopts]

end Loops

/-! ### The undoing -/

section Undo

variable {lab : String} {fence : Fence} {vnis : List Nat}
  {claims before : Table Nat OverlayClaim}

/-- A rollback puts everything that was written back, but for the overlays whose
    aliases are still the lab's. -/
theorem lookup_rollback (reverts : Nat → Bool) {adopted : List Nat}
    (hadopted : ∀ vni ∈ adopted, claims.lookup vni = some (adoptedClaim lab fence))
    (houtside : ∀ vni, vni ∉ vnis → claims.lookup vni = before.lookup vni) (vni : Nat) :
    (rollbackLegacyAdoptions lab reverts adopted vnis before claims).lookup vni =
      if vni ∈ adopted.filter (fun vni => !reverts vni) then some (adoptedClaim lab fence)
      else before.lookup vni := by
  simp only [rollbackLegacyAdoptions, lookup_restoreOverlayClaimsLocked, lookup_foldl_keepClaim,
    mem_reverse]
  by_cases hkept : vni ∈ adopted.filter fun vni => !reverts vni
  · have hnot : vni ∉ vnis.filter (· ∉ adopted.filter fun vni => !reverts vni) := fun h =>
      absurd hkept (of_decide_eq_true (mem_filter.mp h).2)
    rw [if_neg hnot, if_pos hkept, if_pos hkept, hadopted vni (mem_filter.mp hkept).1]
    rfl
  · simp only [if_neg hkept]
    by_cases hvni : vni ∈ vnis
    · rw [if_pos (mem_filter.mpr ⟨hvni, decide_eq_true hkept⟩)]
    · rw [if_neg fun h => hvni (mem_filter.mp h).1, houtside vni hvni]

end Undo

/-! ### The reservation -/

section Reserve

variable {d : OverlayNode} {req : OverlayReservationRequest} {o : ReserveOutcomes} {vnis : List Nat}
  {deadline : Time} {fence : Fence} {lab : String}

theorem claimed_written (hown : Contained lab vnis d.claims d.claims) :
    Claimed lab fence deadline vnis d.claims
      (vnis.foldl (reserveClaim lab fence deadline) d.claims) := by
  refine ⟨fun vni hvni => ?_, fun vni hvni => ?_⟩
  · rw [lookup_foldl_reserveClaim, if_pos hvni]
    refine ⟨_, rfl, ?_⟩
    cases hlook : d.claims.lookup vni with
    | none => exact ⟨rfl, rfl, .inr rfl⟩
    | some claim =>
      cases hlive : claim.live with
      | true => simp [reservedClaim, hlive, hown.inside vni hvni claim hlook]
      | false => simp [reservedClaim, hlive]
  · rw [lookup_foldl_reserveClaim, if_neg hvni]

theorem Claimed.adopt {part : List Nat} {before after : Table Nat OverlayClaim}
    (h : Claimed lab fence deadline vnis before after) (hpart : ∀ vni ∈ part, vni ∈ vnis) :
    Claimed lab fence deadline vnis before (part.foldl (adoptClaim lab fence) after) := by
  refine ⟨fun vni hvni => ?_, fun vni hvni => ?_⟩
  · rw [lookup_foldl_adoptClaim]
    split_ifs
    · exact ⟨_, rfl, rfl, rfl, .inl rfl⟩
    · exact h.inside vni hvni
  · rw [lookup_foldl_adoptClaim, if_neg fun hmem => hvni (hpart vni hmem)]
    exact h.outside vni hvni

theorem mem_of_sortedVNIs {sorted : List Nat} (h : sortedVNIs vnis = some sorted) (vni : Nat) :
    vni ∈ sorted ↔ vni ∈ vnis := by
  unfold sortedVNIs at h
  split_ifs at h
  cases h
  rw [mem_insertionSort, mem_dedup]

theorem Claimed.congr {vnis' : List Nat} {before after : Table Nat OverlayClaim}
    (h : Claimed lab fence deadline vnis before after)
    (hmem : ∀ vni, vni ∈ vnis ↔ vni ∈ vnis') : Claimed lab fence deadline vnis' before after :=
  ⟨fun vni hvni => h.inside vni ((hmem vni).mpr hvni),
    fun vni hvni => h.outside vni fun hvni' => hvni ((hmem vni).mp hvni')⟩

theorem allOrNothing_refused {owners : Table Nat String} {err : OverlayError}
    (h : vnis.findSome? (reservationRefusal d.expire owners o.proves req.lab req.fence) =
      some err) : AllOrNothing d req o (d.expire, some err) := by
  obtain ⟨vni, -, hvni⟩ := exists_of_findSome?_eq_some h
  revert hvni
  fun_cases reservationRefusal d.expire owners o.proves req.lab req.fence vni with
  | case1 =>
    rintro ⟨⟩
    exact fun _ => rfl
  | case2 _ err' howner =>
    revert howner
    fun_cases ownerRefusal owners o.proves req.lab vni with
    | case1 | case2 | case3 => simp
    | _ =>
      rintro ⟨⟩ ⟨⟩
      exact fun _ => rfl
  | case3 =>
    fun_cases claimRefusal d.expire.claims req.lab req.fence vni with
    | case1 | case3 | case5 => simp
    | _ =>
      rintro ⟨⟩
      exact fun _ => rfl

theorem allOrNothing_writeReservation {owners : Table Nat String} {lease : ClusterLease}
    (changed : Bool) (hsorted : sortedVNIs req.vnis = some vnis)
    (howners : o.owners = some owners)
    (hlease : d.expire.node.server.mutations.lookup req.lab = some lease)
    (hown : Contained req.lab vnis d.expire.claims d.expire.claims) :
    AllOrNothing d req o
      (writeReservation d.expire changed owners req.lab req.fence vnis o) := by
  have hwritten : Claimed req.lab req.fence lease.untilAt vnis d.expire.claims _ :=
    claimed_written hown
  have hpart : ∀ vni ∈ (legacyVNIs owners vnis).takeWhile o.adopts, vni ∈ vnis := fun vni hvni =>
    (mem_filter.mp ((takeWhile_sublist _).subset hvni)).1
  have hadopted := hwritten.adopt hpart
  unfold writeReservation
  simp only [hlease, Option.map_some, Option.getD_some]
  split_ifs with hfail
  · -- nothing could be saved, and everything that was written is put back
    intro vni
    rw [claims_withClaims, lookup_restoreOverlayClaimsLocked]
    split_ifs with hvni
    · rfl
    · exact hwritten.outside vni hvni
  · rw [adoptOverlays, adoptUpTo_eq, claims_saveIf, claims_withClaims,
      nil_append]
    have hclaimed := hadopted.congr (mem_of_sortedVNIs hsorted)
    cases (legacyVNIs owners vnis).find? fun vni => !o.adopts vni with
    | none =>
      simp only
      split_ifs with hunsaved
      · exact ⟨lease, hlease, hclaimed⟩
      · refine ⟨lease, hlease, ?_⟩
        rw [claims_saveIf, claims_withClaims]
        exact hclaimed
    | some failed =>
      refine ⟨vnis, owners, hsorted, howners, fun vni => ?_⟩
      rw [claims_saveIf, claims_withClaims]
      refine lookup_rollback o.reverts (fun vni hvni => ?_) hadopted.outside vni
      rw [lookup_foldl_adoptClaim, if_pos hvni]
      rfl

/-- For every node and request, and whatever fails: a granted reservation claims every
    identifier for the lab. A refused one leaves the claims as expiry left them, but
    for exactly the adopted overlays whose aliases could not be put back, which are
    live for the lab. If the adopted overlays cannot be saved, all the claims stand. -/
theorem reserve_all_or_nothing (d : OverlayNode) (req : OverlayReservationRequest)
    (o : ReserveOutcomes) : AllOrNothing d req o (reserveOverlays d req o) := by
  fun_cases reserveOverlays d req o with
  | case1 | case2 | case3 => exact rfl
  | case4 => exact fun vni => by rw [claims_saveIf]
  | case5 _ _ _ _ _ _ _ hrefused => exact allOrNothing_refused hrefused
  | case6 vnis hsorted _ owners howners hfence hrefused =>
    obtain ⟨lease, hlease, -⟩ := exists_lease_of_fenceError hfence
    exact allOrNothing_writeReservation _ hsorted howners hlease
      (contained_of_unrefused hrefused)

end Reserve

/-! ### An adoption that is not saved -/

/-- Lab `a` has a lease on a node without claims. -/
def leasedNode : OverlayNode :=
  overlayStep upgradedNode (.lease (.acquire ⟨"a", "alice", 60⟩ (some "t") true) (.refl false))

/-- Identifier 7 is an overlay of lab `a` without an owner. The second save fails,
    and any alias could be put back. -/
def unsavedAdoption : ReserveOutcomes :=
  { clearOutcomes with
    owners := some ((∅ : Table Nat String).insert 7 "")
    proves := fun _ => true
    adoptionSaved := false }

/-- The reservation fails and its claim stands. -/
theorem unsaved_adoption_stands :
    (reserveOverlays leasedNode ⟨"a", ⟨"t", 1⟩, [7]⟩ unsavedAdoption).2 = some .persistAdopted ∧
      (reserveOverlays leasedNode ⟨"a", ⟨"t", 1⟩, [7]⟩ unsavedAdoption).1.claims.lookup 7 =
        some (adoptedClaim "a" ⟨"t", 1⟩) ∧
      leasedNode.expire.claims.lookup 7 = none := by
  decide +kernel

end Agent

end Twinet
