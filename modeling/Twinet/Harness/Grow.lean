import Mathlib.Data.List.Induction
import Mathlib.Data.Finset.Card
import Twinet.Deploy.Topology

/-!
# Growing a Harness

A harness is a private lab cut out of the class topology. Where it is to be
small, the systems other than the one under test keep only the routers that face
something kept already, and since a router that is added is one more thing to
face, the loop over the cables is run until it adds nothing.

The class topology is a graph of objects that point at one another, so devices,
interfaces and cables are at addresses, and a memory says what is at each. Only
what growing reads of them is part of it.

## Main definitions

* `facing`: Every end of a cable with the one across from it.
* `growSide`, `growPass`, `growDevices`: The loop.
* `Grown`: The devices that are to be grown to.

## Theorems

* `growDevices_fixed`: Growing stops only when there is nothing to add.
* `mem_growDevices_iff`: What is grown is what faces what is kept.
-/

namespace Twinet

namespace Harness

open List

open Deploy (DeviceKind)

/-- Where an object of the topology is. -/
abbrev Addr := Nat

structure Device where
  id : String
  kind : DeviceKind
  /-- Zero for the services of the whole lab. -/
  asn : Nat
deriving DecidableEq, Repr

structure Iface where
  device : Addr
deriving DecidableEq, Repr

structure Link where
  a : Addr
  b : Addr
deriving DecidableEq, Repr

/-- What is at each address, by kind of object. -/
structure Memory where
  device : Addr → Device
  iface : Addr → Iface
  link : Addr → Link

/-- A lab by the addresses of its objects. -/
structure Topology where
  devices : List (String × Addr)
  links : List Addr
deriving DecidableEq, Repr

section

variable (m : Memory) (top : Topology) (i : Addr) (keepAS : List Nat) (keep : List String)

/-- The device that has the interface. -/
def deviceOf : Device := m.device (m.iface i).device

def devID : String := (deviceOf m i).id

def asnOf : Nat := (deviceOf m i).asn

def findDevice (id : String) : Option Addr := top.devices.lookup id

/-- Every end of a cable with the one across from it. -/
def facing : List (Addr × Addr) :=
  top.links.flatMap fun l =>
    [((m.link l).a, (m.link l).b), ((m.link l).b, (m.link l).a)]

/-- Keep a device that faces one that is kept, unless it is a host. -/
def growSide (ends : Addr × Addr) : List String :=
  if devID m ends.1 ∈ keep ∨ devID m ends.2 ∉ keep ∨ asnOf m ends.1 ∉ keepAS then keep
  else
    match findDevice top (devID m ends.1) with
    | none => keep
    | some d => if (m.device d).kind = .host then keep else keep ++ [devID m ends.1]

def growPass : List String :=
  (facing m top).foldl (growSide m top keepAS) keep

/-- Grow until a pass adds nothing. -/
def growDevices (keepAS : List Nat) : Nat → List String → List String
  | 0, keep => keep
  | fuel + 1, keep =>
    let grown := growPass m top keepAS keep
    if grown.length = keep.length then keep else growDevices keepAS fuel grown

end

variable {m : Memory} {top : Topology} {keepAS : List Nat} {keep : List String}

theorem growSide_cases (m : Memory) (top : Topology) (keepAS : List Nat) (keep : List String)
    (e : Addr × Addr) :
    growSide m top keepAS keep e = keep ∨
      growSide m top keepAS keep e = keep ++ [devID m e.1] ∧ devID m e.1 ∉ keep := by
  fun_cases growSide m top keepAS keep e with
  | case4 hskip => exact .inr ⟨rfl, fun hmem => hskip (.inl hmem)⟩
  | _ => exact .inl rfl

theorem growSides_extends (keepAS : List Nat) (es : List (Addr × Addr)) (keep : List String) :
    keep <+: es.foldl (growSide m top keepAS) keep := by
  refine foldlRecOn (motive := (keep <+: ·)) es _ (prefix_refl keep) fun k hk e _ => ?_
  rcases growSide_cases m top keepAS k e with heq | ⟨heq, -⟩ <;> rw [heq]
  · exact hk
  · exact hk.trans (prefix_append ..)

theorem growPass_subset (keepAS : List Nat) (keep : List String) :
    keep ⊆ growPass m top keepAS keep := (growSides_extends keepAS _ keep).subset

theorem growDevices_subset (keepAS : List Nat) (fuel : Nat) (keep : List String) :
    keep ⊆ growDevices m top keepAS fuel keep := by
  fun_induction growDevices m top keepAS fuel keep with
  | case1 | case2 => exact Subset.refl _
  | case3 =>
    rename_i ih
    exact Subset.trans (growPass_subset keepAS _) ih

/-- A pass changes nothing, or it adds a device. -/
theorem growSides_cases (keepAS : List Nat) (es : List (Addr × Addr)) :
    (es.foldl (growSide m top keepAS) keep = keep ∧
        ∀ e ∈ es, growSide m top keepAS keep e = keep) ∨
      ∃ e ∈ es, devID m e.1 ∉ keep ∧ devID m e.1 ∈ es.foldl (growSide m top keepAS) keep := by
  induction es with
  | nil => exact .inl ⟨rfl, nofun⟩
  | cons e rest ih =>
    rw [foldl_cons]
    rcases growSide_cases m top keepAS keep e with heq | ⟨heq, hnew⟩
    · rw [heq]
      rcases ih with ⟨hsame, hall⟩ | ⟨x, hx, hadded⟩
      · exact .inl ⟨hsame, forall_mem_cons.mpr ⟨heq, hall⟩⟩
      · exact .inr ⟨x, mem_cons_of_mem e hx, hadded⟩
    · refine .inr ⟨e, mem_cons_self, hnew, (growSides_extends keepAS rest _).subset ?_⟩
      simp [heq]

/-- The devices that ends of cables are on and that are not kept yet. -/
def missing (m : Memory) (top : Topology) (keep : List String) : Finset String :=
  ((facing m top).map fun e => devID m e.1).toFinset \ keep.toFinset

theorem missing_lt (keepAS : List Nat) (hlen : (growPass m top keepAS keep).length ≠ keep.length) :
    (missing m top (growPass m top keepAS keep)).card < (missing m top keep).card := by
  rcases growSides_cases keepAS (facing m top) with ⟨hsame, -⟩ | ⟨e, he, hnew, hadded⟩
  · exact absurd (congrArg length hsame) hlen
  refine Finset.card_lt_card (Finset.ssubset_iff_of_subset ?_ |>.mpr ⟨devID m e.1, ?_, ?_⟩)
  · refine Finset.sdiff_subset_sdiff (Finset.Subset.refl _) ?_
    intro x hx
    rw [mem_toFinset] at hx ⊢
    exact growPass_subset keepAS keep hx
  · simp only [missing, Finset.mem_sdiff, mem_toFinset, mem_map]
    exact ⟨⟨e, he, rfl⟩, hnew⟩
  · simp only [missing, Finset.mem_sdiff, mem_toFinset, not_and, not_not]
    exact fun _ => hadded

/-- With enough fuel nothing more is grown. -/
theorem growDevices_fixed (keepAS : List Nat) (fuel : Nat)
    (hfuel : (missing m top keep).card < fuel) :
    ∀ e ∈ facing m top, growSide m top keepAS (growDevices m top keepAS fuel keep) e =
      growDevices m top keepAS fuel keep := by
  induction fuel generalizing keep with
  | zero => exact absurd hfuel (Nat.not_lt_zero _)
  | succ fuel ih =>
    unfold growDevices
    simp only
    by_cases hlen : (growPass m top keepAS keep).length = keep.length
    · rw [if_pos hlen]
      rcases growSides_cases keepAS (facing m top) with ⟨-, hall⟩ | ⟨e, -, hnew, hadded⟩
      · exact hall
      · rw [← (growSides_extends keepAS _ keep).eq_of_length hlen.symm] at hadded
        exact absurd hadded hnew
    · rw [if_neg hlen]
      exact ih (Nat.lt_of_lt_of_le (missing_lt keepAS hlen) (Nat.le_of_lt_succ hfuel))

theorem missing_le (keep : List String) :
    (missing m top keep).card < 2 * top.links.length + 1 := by
  have hfacing : (facing m top).length = 2 * top.links.length := by
    unfold facing
    rw [length_flatMap]
    simp [Nat.mul_comm]
  calc (missing m top keep).card
      ≤ ((facing m top).map fun e => devID m e.1).toFinset.card :=
        Finset.card_le_card Finset.sdiff_subset
    _ ≤ (facing m top).length := by simpa using toFinset_card_le ((facing m top).map _)
    _ < 2 * top.links.length + 1 := by omega

/-- The devices that are to be grown to: no host, of a system that is kept, and facing a
    device that is kept by then. -/
inductive Grown (m : Memory) (top : Topology) (keepAS : List Nat) (keep : List String) :
    String → Prop
  | kept {id : String} : id ∈ keep → Grown m top keepAS keep id
  | faces {side other d : Addr} : (side, other) ∈ facing m top →
      Grown m top keepAS keep (devID m other) → asnOf m side ∈ keepAS →
      findDevice top (devID m side) = some d → (m.device d).kind ≠ .host →
      Grown m top keepAS keep (devID m side)

theorem growSide_grown {k : List String} (hk : ∀ id ∈ k, Grown m top keepAS keep id)
    {e : Addr × Addr} (he : e ∈ facing m top) :
    ∀ id ∈ growSide m top keepAS k e, Grown m top keepAS keep id := by
  fun_cases growSide m top keepAS k e with
  | case4 hskip d hfind hkind =>
    simp only [not_or, not_not] at hskip
    rw [forall_mem_append]
    refine ⟨hk, forall_mem_singleton.mpr ?_⟩
    exact .faces he (hk _ hskip.2.1) hskip.2.2 hfind hkind
  | _ => exact hk

theorem growDevices_grown (fuel : Nat) {k : List String}
    (hk : ∀ id ∈ k, Grown m top keepAS keep id) :
    ∀ id ∈ growDevices m top keepAS fuel k, Grown m top keepAS keep id := by
  fun_induction growDevices m top keepAS fuel k with
  | case1 | case2 => exact hk
  | case3 _ _ grown _ ih =>
    refine ih (foldlRecOn (motive := fun k => ∀ id ∈ k, Grown m top keepAS keep id) _ _ hk ?_)
    exact fun k hk e he => growSide_grown hk he

/-- Growing ends with the devices that are to be grown to, and no others. -/
theorem mem_growDevices_iff (keepAS : List Nat) (keep : List String) (id : String) :
    id ∈ growDevices m top keepAS (2 * top.links.length + 1) keep ↔
      Grown m top keepAS keep id := by
  refine ⟨growDevices_grown _ (fun _ => .kept) id, fun h => ?_⟩
  induction h with
  | kept hkeep => exact growDevices_subset keepAS _ keep hkeep
  | @faces side other d hface _ hasn hfind hkind hother =>
    -- the last pass had nothing to add for this cable
    have hfixed := growDevices_fixed keepAS _ (missing_le keep) _ hface
    by_contra hmissing
    simp [growSide, hmissing, hother, hasn, hfind, hkind] at hfixed

end Harness

end Twinet
