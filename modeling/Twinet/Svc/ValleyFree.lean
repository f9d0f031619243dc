import Mathlib.Algebra.Group.Nat.Defs
import Mathlib.Data.List.Find
import Mathlib.Data.List.Induction
import Mathlib.Data.List.Sort
import Twinet.Lib.Strings

/-!
# Valley-Free Paths

A path may climb to providers, cross at most one peering and then descend to customers. The
matrix judges the path of a cell, from its source on. The policy analyzer judges the best
paths of the looking glasses. The matrix asks what the next system is to the one before it.
The analyzer asks the opposite, and leaves out the source.

What two systems are to each other is said by the cables: the last one that joins them
counts, seen from the near end (`isTo`). Both judge by a map that they fill from the cables.

## Main definitions

* `relationshipMap`, `violatesRelationships`: The map and the verdict of the matrix.
* `relOf`, `analysePolicy`: The map of the analyzer, and what it reports.
* `isTo`: What a system is to another, by the cables.
* `climbed`, `climbedBack`: What is known along a path, read forwards and backwards.
* `ValleyFree`: The shape of a path.

## Theorems

* `relationshipMap_eq`, `relOf_eq`: The two maps are filled by what the cables declare.
* `violatesRelationships_iff`: The matrix reports the paths that are not valley-free.
* `agrees_iff_uniform`: Where everything is declared, the paths on which both agree.
* `analysePolicy_agrees_iff`: When the analyzer reports the same paths.
-/

namespace Twinet

namespace Svc

open List Function

inductive Relationship where
  | provider
  | customer
  | peer
deriving DecidableEq, Repr

def Relationship.inverse : Relationship → Relationship
  | .provider => .customer
  | .customer => .provider
  | .peer => .peer

/-- What a cable says from its other side. What is not declared becomes a peering. -/
def inverse (rel : Option Relationship) : Option Relationship :=
  some ((rel.map Relationship.inverse).getD .peer)

/-- A cable with the systems of its ends. What it declares, if anything, is what the first is
    to the second. -/
structure Link where
  a : Option Nat
  b : Option Nat
  interAS : Bool
  rel : Option Relationship
deriving DecidableEq, Repr

/-- A map of the systems that are joined, with what was declared. -/
abbrev Relations := Nat × Nat → Option (Option Relationship)

section

variable (links : List Link)

/-- What the second of two systems is to the first. -/
def relationshipMap : Relations :=
  links.foldl (fun out l =>
    match l.a, l.b with
    | some a, some b =>
      if a = b ∨ a = 0 ∨ b = 0 then out
      else update (update out (a, b) (some (inverse l.rel))) (b, a) (some l.rel)
    | _, _ => out) fun _ => none

inductive State where
  | climbing
  | crossed
  | descending
deriving DecidableEq, Repr

/-- Where a path goes wrong. -/
inductive Violation where
  | climbs (prev next : Nat)
  | crosses (prev next : Nat)
deriving DecidableEq, Repr

def judge (rel : Relations) : State → Nat → List Nat → Option Violation
  | _, _, [] => none
  | state, prev, next :: path =>
    if next = prev then judge rel state prev path
    else
      match rel (prev, next) with
      | some (some .provider) =>
        if state ≠ .climbing then some (.climbs prev next) else judge rel state next path
      | some (some .peer) =>
        if state ≠ .climbing then some (.crosses prev next) else judge rel .crossed next path
      | some (some .customer) => judge rel .descending next path
      -- not joined, or by a cable that declares nothing
      | some none | none => judge rel state next path

def violatesRelationships (source : Nat) (path : List Nat) : Option Violation :=
  judge (relationshipMap links) .climbing source path

/-! ### The analyzer -/

/-- What the first of two systems is to the second. -/
def relOf : Relations :=
  links.foldl (fun out l =>
    match l.interAS, l.a, l.b with
    | true, some a, some b => update (update out (a, b) (some l.rel)) (b, a) (some (inverse l.rel))
    | _, _, _ => out) fun _ => none

inductive Detail where
  | twoPeers (a b : Nat)
  | peerAfterCustomer (a b : Nat)
  | climbs (a b : Nat)
deriving DecidableEq, Repr

def walk (rel : Relations) : Bool → Bool → List Nat → Option Detail
  | peerSeen, descending, a :: b :: hops =>
    match if a = 0 ∨ b = 0 then none else rel (a, b) with
    | some (some .peer) =>
      if peerSeen then some (.twoPeers a b)
      else if descending then some (.peerAfterCustomer a b)
      else walk rel true descending (b :: hops)
    | some (some .customer) => walk rel peerSeen true (b :: hops)
    | some (some .provider) =>
      if peerSeen || descending then some (.climbs a b)
      else walk rel peerSeen descending (b :: hops)
    | some none | none => walk rel peerSeen descending (b :: hops)
  | _, _, _ => none

def valleyFree (rel : Relations) (hops : List Nat) : Option Detail :=
  if hops.length < 3 then none else walk rel false false hops

def atoiSafe (s : List Char) : Nat :=
  if s.all Char.isDigit then s.foldl (fun n r => (n * 10 + (r.toNat - 48)) % 2 ^ 64) 0 else 0

/-- The systems a path names. -/
def hopsOf (path : String) : List Nat :=
  ((path.toList.splitOnP Strings.isSpace).filter (· ≠ [])).map atoiSafe

structure Route where
  best : Bool
  path : String
deriving DecidableEq, Repr

structure LookingGlass where
  as : Nat
  router : String
  err : String
  routes : List (String × List Route)
deriving DecidableEq, Repr

structure Leak where
  as : Nat
  router : String
  dest : String
  path : String
  detail : Detail
deriving DecidableEq, Repr

def analysePolicy (lgs : List LookingGlass) : List Leak :=
  let leaks := (lgs.filter (·.err = "")).flatMap fun lg => lg.routes.flatMap fun r =>
    (r.2.filter fun p => p.best && p.path ≠ "").filterMap fun p =>
      (valleyFree (relOf links) (hopsOf p.path)).map fun why =>
        ⟨lg.as, lg.router, r.1, p.path, why⟩
  leaks.insertionSort fun x y => x.as < y.as ∨ x.as = y.as ∧ x.dest ≤ y.dest

/-! ### What systems are to each other -/

/-- The cable joins two systems, either way around. -/
def Link.Joins (l : Link) (a b : Nat) : Bool :=
  l.a = some a && l.b = some b || l.a = some b && l.b = some a

/-- What the far end of a cable is to the near one. A cable declares what its first end is
    to the second, so that seen from the first it is turned around. -/
def Link.seenFrom (l : Link) (near : Nat) : Option Relationship :=
  if l.a = some near then inverse l.rel else l.rel

/-- What the second of two systems is to the first, by the last cable that joins them. -/
def isTo (p : Nat × Nat) : Option Relationship :=
  if p.1 = 0 ∨ p.2 = 0 then none
  else (links.reverse.find? (·.Joins p.1 p.2)).bind (·.seenFrom p.1)

end

/-- What is known along a path. -/
def along (rel : Nat × Nat → Option Relationship) (path : List Nat) : List Relationship :=
  (path.zip path.tail).filterMap rel

/-- What each system on a path is to the one before it. One that is repeated is nothing to
    itself. -/
def climbed (links : List Link) : List Nat → List Relationship :=
  along fun p => if p.2 = p.1 then none else isTo links p

/-- What each system is to the one after it, by the cables between systems. -/
def climbedBack (links : List Link) : List Nat → List Relationship :=
  along fun p => isTo (links.filter (·.interAS)) p.swap

/-! ### The shape -/

/-- Some climbs, at most one peering and some descents. -/
def ValleyFree (rels : List Relationship) : Prop :=
  ∃ up across down, across ≤ 1 ∧
    rels = replicate up .provider ++ (replicate across .peer ++ replicate down .customer)

/-- What may come after a path that has only climbed, or has done something else. -/
def Allows (climbing : Bool) (rels : List Relationship) : Prop :=
  if climbing then rels.Pairwise fun r s => r = .provider ∨ s = .customer
  else ∀ s ∈ rels, s = .customer

/-- A path may go on with a climb or a peering only if it has climbed so far. -/
theorem allows_cons {climbing : Bool} {r : Relationship} {rels : List Relationship} :
    Allows climbing (r :: rels) ↔
      match r with
      | .provider => climbing = true ∧ Allows climbing rels
      | .peer => climbing = true ∧ Allows false rels
      | .customer => Allows false rels := by
  have hdown (h : ∀ s ∈ rels, s = .customer) :
      rels.Pairwise fun r s => r = .provider ∨ s = .customer :=
    pairwise_of_forall_mem_list fun _ _ s hs => .inr (h s hs)
  cases climbing <;> cases r <;> simp [Allows] <;> exact hdown

theorem valleyFree_iff {rels : List Relationship} : ValleyFree rels ↔ Allows true rels := by
  constructor
  · rintro ⟨up, across, down, hacross, rfl⟩
    simp [Allows, pairwise_append, pairwise_replicate, hacross]
  · intro h
    induction rels with
    | nil => exact ⟨0, 0, 0, by simp⟩
    | cons r rels ih =>
      rw [allows_cons] at h
      cases r with
      | provider =>
        obtain ⟨up, across, down, hacross, rfl⟩ := ih h.2
        exact ⟨up + 1, across, down, hacross, rfl⟩
      | peer => exact ⟨0, 1, rels.length, le_refl 1, by rw [eq_replicate_of_mem h.2]; simp⟩
      | customer =>
        refine ⟨0, 0, rels.length + 1, zero_le_one, ?_⟩
        rw [eq_replicate_of_mem h]
        simp [replicate_succ]

/-! ### The maps -/

variable {links : List Link} {a b x y : Nat} {inter : Bool} {rel : Option Relationship}

theorem joins_iff : (Link.mk (some x) (some y) inter rel).Joins a b = true ↔
    x = a ∧ y = b ∨ x = b ∧ y = a := by
  simp [Link.Joins]

/-- The matrix goes by what the last cable between two systems declares. -/
theorem relationshipMap_eq (hab : a ≠ b) (ha : a ≠ 0) (hb : b ≠ 0) :
    relationshipMap links (a, b) = (links.reverse.find? (·.Joins a b)).map (·.seenFrom a) := by
  -- a later entry of the map replaces an earlier one
  induction links using reverseRecOn with
  | nil => rfl
  | append_singleton links l ih =>
    rw [relationshipMap, foldl_concat, ← relationshipMap, reverse_concat, find?_cons]
    obtain ⟨_ | x, _ | y, inter, rel⟩ := l
    case some.some =>
      by_cases hjoin : x = a ∧ y = b ∨ x = b ∧ y = a
      · rw [joins_iff.mpr hjoin]
        rcases hjoin with ⟨rfl, rfl⟩ | ⟨rfl, rfl⟩
        · simp [hab, ha, hb, Link.seenFrom]
        · simp [hab.symm, ha, hb, Link.seenFrom]
      · rw [Bool.eq_false_of_not_eq_true (joins_iff.not.mpr hjoin)]
        dsimp only
        split_ifs
        · exact ih
        · rw [← ih, update_of_ne, update_of_ne] <;> grind
    all_goals simp [ih, Link.Joins]

/-- The matrix knows nothing of a system and itself, or of one without a number. -/
theorem relationshipMap_none (h : a = b ∨ a = 0 ∨ b = 0) : relationshipMap links (a, b) = none := by
  induction links using reverseRecOn with
  | nil => rfl
  | append_singleton links l ih =>
    rw [relationshipMap, foldl_concat, ← relationshipMap]
    obtain ⟨_ | x, _ | y, inter, rel⟩ := l
    case some.some =>
      dsimp only
      split_ifs with hskip
      · exact ih
      · grind
    all_goals exact ih

/-- The analyzer goes by the same, seen from the other end. -/
theorem relOf_eq : relOf links (a, b) =
    ((links.filter (·.interAS)).reverse.find? (·.Joins b a)).map (·.seenFrom b) := by
  induction links using reverseRecOn with
  | nil => rfl
  | append_singleton links l ih =>
    rw [relOf, foldl_concat, ← relOf, filter_append, reverse_append]
    obtain ⟨_ | x, _ | y, _ | _, rel⟩ := l
    case some.some.true =>
      simp only [filter_cons, filter_nil, if_pos, reverse_cons, reverse_nil, nil_append,
        cons_append, find?_cons]
      by_cases hjoin : x = b ∧ y = a ∨ x = a ∧ y = b
      · rw [joins_iff.mpr hjoin]
        simp only [update_apply, Prod.mk.injEq, Option.map_some, Link.seenFrom, Option.some.injEq]
        grind
      · rw [Bool.eq_false_of_not_eq_true (joins_iff.not.mpr hjoin), ← ih]
        simp only [update_apply, Prod.mk.injEq]
        grind
    all_goals simp [ih, Link.Joins]

theorem join_relationshipMap (p : Nat × Nat) :
    (if p.2 = p.1 then none else (relationshipMap links p).join) =
      if p.2 = p.1 then none else isTo links p := by
  obtain ⟨a, b⟩ := p
  by_cases hab : b = a
  · rw [if_pos hab, if_pos hab]
  · rw [if_neg hab, if_neg hab, isTo]
    split_ifs with hzero
    · rw [relationshipMap_none (.inr hzero)]
      rfl
    · rw [not_or] at hzero
      rw [relationshipMap_eq (Ne.symm hab) hzero.1 hzero.2]
      cases links.reverse.find? (·.Joins a b) <;> rfl

theorem join_relOf (p : Nat × Nat) : (if p.1 = 0 ∨ p.2 = 0 then none else (relOf links p).join) =
    isTo (links.filter (·.interAS)) p.swap := by
  obtain ⟨a, b⟩ := p
  rw [isTo, relOf_eq]
  refine if_congr Or.comm rfl ?_
  simp only [Prod.swap_prod_mk]
  cases (links.filter (·.interAS)).reverse.find? (·.Joins b a) <;> rfl

/-! ### The verdicts -/

theorem judge_eq_none_iff {rel : Relations} {state : State} {prev : Nat} {path : List Nat} :
    judge rel state prev path = none ↔ Allows (state = .climbing)
      (along (fun p => if p.2 = p.1 then none else (rel p).join) (prev :: path)) := by
  fun_induction judge rel state prev path with
  | case1 => simp [Allows, along]
  | case2 state next path ih => simpa [along] using ih
  | _ => simp_all [along, allows_cons]

theorem walk_eq_none_iff {rel : Relations} {peerSeen descending : Bool} {hops : List Nat} :
    walk rel peerSeen descending hops = none ↔ Allows (!(peerSeen || descending))
      (along (fun p => if p.1 = 0 ∨ p.2 = 0 then none else (rel p).join) hops) := by
  induction hops generalizing peerSeen descending with
  | nil => simp [walk, Allows, along]
  | cons a hops ih =>
    cases hops with
    | nil => simp [walk, Allows, along]
    | cons b hops =>
      rw [walk]
      simp only [along, tail_cons, zip_cons_cons, filterMap_cons]
      have hzero : (if a = 0 ∨ b = 0 then none else (rel (a, b)).join) =
          (if a = 0 ∨ b = 0 then none else rel (a, b)).join := by
        rw [apply_ite Option.join]
        rfl
      rw [hzero]
      cases if a = 0 ∨ b = 0 then none else rel (a, b) with
      | none => exact ih
      | some known =>
        cases known with
        | none => exact ih
        | some r =>
          rw [Option.join_some, allows_cons]
          cases peerSeen <;> cases descending <;> cases r <;> simp [ih, along]

/-- The matrix reports a path exactly if what the systems are to those before them, from the
    source on, is not some climbs, at most one peering and some descents. -/
theorem violatesRelationships_iff (links : List Link) (source : Nat) (path : List Nat) :
    (violatesRelationships links source path).isSome ↔
      ¬ ValleyFree (climbed links (source :: path)) := by
  rw [valleyFree_iff, Option.isSome_iff_ne_none, violatesRelationships, ne_eq, judge_eq_none_iff,
    funext join_relationshipMap]
  rfl

/-- The best path of a router that was asked. -/
def Collected (lgs : List LookingGlass) (lg : LookingGlass) (dest path : String) : Prop :=
  lg ∈ lgs ∧ lg.err = "" ∧ ∃ r ∈ lg.routes, r.1 = dest ∧ ∃ p ∈ r.2, p.best = true ∧ p.path = path

def Reported (links : List Link) (lgs : List LookingGlass) (lg : LookingGlass)
    (dest path : String) : Prop :=
  ∃ why, ⟨lg.as, lg.router, dest, path, why⟩ ∈ analysePolicy links lgs

/-- The analyzer finds fault with what the systems are to those after them. -/
theorem valleyFree_isSome_iff {hops : List Nat} :
    (∃ why, valleyFree (relOf links) hops = some why) ↔
      ¬ (hops.length < 3 ∨ ValleyFree (climbedBack links hops)) := by
  rw [← Option.isSome_iff_exists, Option.isSome_iff_ne_none, valleyFree]
  split_ifs with hshort
  · simp [hshort]
  · rw [ne_eq, walk_eq_none_iff, valleyFree_iff, funext join_relOf]
    simp [hshort, climbedBack]

theorem reported_iff {lgs : List LookingGlass} {lg : LookingGlass} {dest path : String}
    (h : Collected lgs lg dest path) : Reported links lgs lg dest path ↔
      ¬ ((hopsOf path).length < 3 ∨ ValleyFree (climbedBack links (hopsOf path))) := by
  rw [← valleyFree_isSome_iff]
  unfold Reported analysePolicy
  simp only [mem_insertionSort, mem_flatMap, mem_filter, mem_filterMap]
  obtain ⟨hlg, herr, r, hr, rfl, p, hp, hbest, rfl⟩ := h
  constructor
  · rintro ⟨why, lg', -, r', -, q, -, hq⟩
    obtain ⟨w, hw, heq⟩ := Option.map_eq_some_iff.mp hq
    obtain ⟨-, -, -, hpath, rfl⟩ := Leak.mk.inj heq
    exact ⟨w, hpath ▸ hw⟩
  · rintro ⟨why, hwhy⟩
    have hpath : p.path ≠ "" := by
      intro hempty
      simp [hempty, hopsOf, valleyFree] at hwhy
    refine ⟨why, lg, ⟨hlg, by simp [herr]⟩, r, hr, p, ⟨hp, by simp [hbest, hpath]⟩, ?_⟩
    rw [hwhy]
    rfl

/-! ### Where both agree -/

/-- Some descents, at most one peering and some climbs: what the analyzer lets pass. -/
def Valley (rels : List Relationship) : Prop :=
  ∃ down across up, across ≤ 1 ∧
    rels = replicate down .customer ++ (replicate across .peer ++ replicate up .provider)

/-- Only climbs, only descents, or one step. -/
def Uniform (rels : List Relationship) : Prop :=
  (∀ r ∈ rels, r = .provider) ∨ (∀ r ∈ rels, r = .customer) ∨ rels.length ≤ 1

/-- The cables between systems are those that join two of them, and all of these say what one
    is to the other. -/
def Declared (links : List Link) : Prop :=
  ∀ l ∈ links, ∀ a b, a ≠ 0 → b ≠ 0 → l.a = some a → l.b = some b →
    (l.interAS = true ↔ a ≠ b) ∧ (a ≠ b → l.rel.isSome = true)

theorem inverse_inverse (r : Relationship) : r.inverse.inverse = r := by
  cases r <;> rfl

theorem valleyFree_map_inverse {rels : List Relationship} :
    ValleyFree (rels.map Relationship.inverse) ↔ Valley rels := by
  refine exists₃_congr fun up across down => and_congr_right fun _ => ⟨fun h => ?_, ?_⟩
  · have hback := congrArg (map Relationship.inverse) h
    rw [map_map, Function.comp_def, funext inverse_inverse, map_id'] at hback
    rw [hback]
    simp [Relationship.inverse]
  · rintro rfl
    simp [Relationship.inverse]

/-- Of the valley-free paths the analyzer lets pass those that are uniform. -/
theorem valley_iff_uniform {rels : List Relationship} (h : ValleyFree rels) :
    Valley rels ↔ Uniform rels := by
  -- the path read backwards
  have hpairs : Valley rels ↔ rels.Pairwise fun r s => r = .customer ∨ s = .provider := by
    rw [← valleyFree_map_inverse, valleyFree_iff, Allows, if_pos rfl, pairwise_map]
    have hflip : ∀ r s : Relationship, (r.inverse = .provider ∨ s.inverse = .customer) ↔
        (r = .customer ∨ s = .provider) := by
      intro r s
      cases r <;> cases s <;> simp [Relationship.inverse]
    simp only [hflip]
  rw [valleyFree_iff, Allows, if_pos rfl] at h
  rw [hpairs]
  constructor
  · intro hback
    cases rels with
    | nil => exact .inl (by simp)
    | cons r rest =>
      cases rest with
      | nil => exact .inr (.inr (le_refl 1))
      | cons s rest =>
        -- forwards and backwards allow the same step twice only
        have hsame : ∀ t ∈ s :: rest, t = r ∧ r ≠ .peer := by
          intro t ht
          have hup := rel_of_pairwise_cons h ht
          have hdown := rel_of_pairwise_cons hback ht
          cases r <;> cases t <;> simp_all
        have hall : ∀ t ∈ r :: s :: rest, t = r :=
          forall_mem_cons.mpr ⟨rfl, fun t ht => (hsame t ht).1⟩
        cases r with
        | provider => exact .inl hall
        | customer => exact .inr (.inl hall)
        | peer => exact absurd rfl (hsame s mem_cons_self).2
  · rintro (hup | hdown | hshort)
    · exact pairwise_of_forall_mem_list fun _ _ s hs => .inr (hup s hs)
    · exact pairwise_of_forall_mem_list fun r hr _ _ => .inl (hdown r hr)
    · match rels, hshort with
      | [], _ => exact .nil
      | [r], _ => exact pairwise_singleton _ r

theorem joins_comm (l : Link) (a b : Nat) : l.Joins a b = l.Joins b a := Bool.or_comm _ _

/-- Where everything is declared, what the analyzer goes by is the inverse. -/
theorem isTo_swap (hdecl : Declared links) (p : Nat × Nat) :
    isTo (links.filter (·.interAS)) p.swap =
      (if p.2 = p.1 then none else isTo links p).map Relationship.inverse := by
  obtain ⟨a, b⟩ := p
  simp only [isTo, Prod.swap_prod_mk, or_comm (a := b = 0)]
  by_cases hzero : a = 0 ∨ b = 0
  · simp [hzero]
  · rw [if_neg hzero, if_neg hzero]
    rw [not_or] at hzero
    -- the cables that join the two are those between systems
    have hends : ∀ l ∈ links, l.Joins a b = true → (l.interAS = true ↔ a ≠ b) ∧
        (a ≠ b → l.seenFrom b = (l.seenFrom a).map Relationship.inverse) := by
      intro l hl hjoins
      obtain ⟨x, y, inter, rel⟩ := l
      simp only [Link.Joins, Bool.or_eq_true, Bool.and_eq_true, decide_eq_true_eq] at hjoins
      rcases hjoins with ⟨rfl, rfl⟩ | ⟨rfl, rfl⟩
      · obtain ⟨hinter, hrel⟩ := hdecl _ hl a b hzero.1 hzero.2 rfl rfl
        refine ⟨hinter, fun hab => ?_⟩
        obtain ⟨r, rfl⟩ := Option.isSome_iff_exists.mp (hrel hab)
        simp [Link.seenFrom, hab, inverse, inverse_inverse]
      · obtain ⟨hinter, hrel⟩ := hdecl _ hl b a hzero.2 hzero.1 rfl rfl
        refine ⟨hinter.trans ne_comm, fun hab => ?_⟩
        obtain ⟨r, rfl⟩ := Option.isSome_iff_exists.mp (hrel (Ne.symm hab))
        simp [Link.seenFrom, Ne.symm hab, inverse]
    by_cases hab : b = a
    · rw [if_pos hab, Option.map_none, Option.bind_eq_none_iff]
      intro l hfind
      obtain ⟨hl, hinter⟩ := mem_filter.mp (mem_reverse.mp (mem_of_find?_eq_some hfind))
      have hjoins := find?_some hfind
      rw [joins_comm] at hjoins
      exact absurd hab.symm ((hends l hl hjoins).1.mp hinter)
    · have hab' : a ≠ b := Ne.symm hab
      have hfind : (links.filter (·.interAS)).reverse.find? (·.Joins b a) =
          links.reverse.find? (·.Joins a b) := by
        rw [← filter_reverse, find?_filter]
        refine find?_congr fun l hl => ?_
        rw [joins_comm l b a, Bool.eq_iff_iff, decide_eq_true_eq, and_iff_right_iff_imp]
        exact fun hjoins => (hends l (mem_reverse.mp hl) hjoins).1.mpr hab'
      rw [if_neg hab, hfind, Option.map_bind]
      refine Option.bind_congr fun l hl => ?_
      have hjoins : l.Joins a b = true := find?_some (p := fun l : Link => l.Joins a b) hl
      exact (hends l (mem_reverse.mp (mem_of_find?_eq_some hl)) hjoins).2 hab'

theorem climbedBack_eq (hdecl : Declared links) (hops : List Nat) :
    climbedBack links hops = (climbed links hops).map Relationship.inverse := by
  rw [climbedBack, climbed, along, along, map_filterMap, funext (isTo_swap hdecl)]

theorem ValleyFree.tail {source : Nat} {hops : List Nat}
    (h : ValleyFree (climbed links (source :: hops))) : ValleyFree (climbed links hops) := by
  rw [valleyFree_iff, Allows, if_pos rfl] at h ⊢
  cases hops with
  | nil => exact .nil
  | cons first rest =>
    simp only [climbed, along, tail_cons, zip_cons_cons, filterMap_cons] at h ⊢
    split at h
    · exact h
    · exact h.of_cons

/-- A short path is valley-free. A longer one is valley-free and uniform without its source,
    or it is not, and is no valley without its source. -/
def Alike (links : List Link) (source : Nat) (hops : List Nat) : Prop :=
  (hops.length < 3 → ValleyFree (climbed links (source :: hops))) ∧
  (3 ≤ hops.length →
    (ValleyFree (climbed links (source :: hops)) ∧ Uniform (climbed links hops)) ∨
    (¬ ValleyFree (climbed links (source :: hops)) ∧ ¬ Valley (climbed links hops)))

/-- The two tests agree on paths that are alike. -/
theorem agrees_iff_uniform (hdecl : Declared links) {source : Nat} {hops : List Nat} :
    (ValleyFree (climbed links (source :: hops)) ↔
      hops.length < 3 ∨ ValleyFree (climbedBack links hops)) ↔ Alike links source hops := by
  rw [climbedBack_eq hdecl, valleyFree_map_inverse, Alike]
  by_cases hshort : hops.length < 3
  · simp [hshort]
  · by_cases hfree : ValleyFree (climbed links (source :: hops))
    · simp [hshort, hfree, valley_iff_uniform hfree.tail, Nat.not_lt.mp hshort]
    · simp [hshort, hfree, Nat.not_lt.mp hshort]

/-- The analyzer reports the best paths that the matrix reports. -/
def Agrees (links : List Link) (lgs : List LookingGlass) : Prop :=
  ∀ lg dest path, Collected lgs lg dest path → (Reported links lgs lg dest path ↔
    (violatesRelationships links lg.as (hopsOf path)).isSome)

/-- The analyzer reports the paths the matrix reports exactly if those that are valley-free
    from the source on are short, or valley-free when they are read backwards and without the
    source. Where everything is declared: if the short ones are valley-free, and the longer
    ones either valley-free and uniform or neither valley-free nor valleys. -/
theorem analysePolicy_agrees_iff (links : List Link) (lgs : List LookingGlass) :
    (Agrees links lgs ↔ ∀ lg dest path, Collected lgs lg dest path →
      (ValleyFree (climbed links (lg.as :: hopsOf path)) ↔
        (hopsOf path).length < 3 ∨ ValleyFree (climbedBack links (hopsOf path)))) ∧
    (Declared links → (Agrees links lgs ↔ ∀ lg dest path, Collected lgs lg dest path →
      Alike links lg.as (hopsOf path))) := by
  have hagrees : Agrees links lgs ↔ ∀ lg dest path, Collected lgs lg dest path →
      (ValleyFree (climbed links (lg.as :: hopsOf path)) ↔
        (hopsOf path).length < 3 ∨ ValleyFree (climbedBack links (hopsOf path))) := by
    refine forall₃_congr fun lg dest path => forall_congr' fun h => ?_
    rw [reported_iff h, violatesRelationships_iff, not_iff_not]
    exact Iff.comm
  refine ⟨hagrees, fun hdecl => hagrees.trans ?_⟩
  exact forall₃_congr fun lg dest path => forall_congr' fun _ => agrees_iff_uniform hdecl

/-- System 1 provides for 2 and 3, and 2 for 4. -/
def threeTiers : List Link :=
  [⟨some 1, some 2, true, some .provider⟩, ⟨some 1, some 3, true, some .provider⟩,
    ⟨some 2, some 4, true, some .provider⟩]

/-- The path of 4 over its providers down to 3 is reported as a leak. -/
theorem climb_reported_as_leak :
    let lg : LookingGlass := ⟨4, "R1", "", [("10.3.0.0/16", [⟨true, "2 1 3"⟩])]⟩
    Collected [lg] lg "10.3.0.0/16" "2 1 3" ∧ Reported threeTiers [lg] lg "10.3.0.0/16" "2 1 3" ∧
      violatesRelationships threeTiers 4 (hopsOf "2 1 3") = none := by
  refine ⟨by simp [Collected], ⟨.climbs 1 3, by decide +kernel⟩, by decide +kernel⟩

end Svc

end Twinet
