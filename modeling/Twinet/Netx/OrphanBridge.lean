import Twinet.Lib.Numeral
import Twinet.Netx.Multiplex

/-!
# Orphan Bridges

A bridge is left behind when its tunnel goes or the record of its owner is never
written. A scan lists the bridges with a name of their kind that carry nothing and are
of no live lab, and before one is deleted the host is looked at once more. The second
look asks for less than the scan: not whether the bridge has a master, nor whether its
tunnel is back.

## Main definitions

* `orphanBridges`: The scan.
* `removeOrphanBridge`: The second look, and the deletion.
* `Unclaimed`, `Stranded`: What both looks ask for, and what only the scan does.

## Theorems

* `listed_iff`, `removeOrphanBridge_iff`: What is listed, and what is deleted.
* `orphan_reproved_iff`: When everything that is deleted would be listed.
-/

namespace Twinet

namespace Netx

open List Strings

/-- What is read of a link of the host. -/
structure BridgeLink where
  name : String
  aliasText : String
  index : Int
  masterIndex : Int
  bridge : Bool
deriving DecidableEq, Repr

/-- The links of a host, which have different names. -/
structure LinkTable where
  links : List BridgeLink
  distinct : (links.map (·.name)).Nodup

structure OrphanBridge where
  name : String
  owner : String
  vni : Nat
  ports : Nat
deriving DecidableEq, Repr

/-! ### Names and owners -/

/-- What follows the start of a name, if it is made of so many characters of a kind. -/
def matchName (start : String) (low high : Nat) (kind : Char → Bool) (name : String) :
    Option (List Char) :=
  let rest := name.toList.drop start.length
  if hasPrefix name start && low ≤ rest.length && rest.length ≤ high && rest.all kind then
    some rest
  else none

def multiplexPairName : String → Option (List Char) :=
  matchName "twbp" 11 11 fun c => c.isDigit || ('a' ≤ c && c ≤ 'f')

def legacyBridgeName : String → Option (List Char) := matchName "twbr" 1 10 Char.isDigit

def vxlanName (vni : Nat) : String := "twvx" ++ toString vni

def legacyBridgeVNI (name : String) : Option Nat :=
  ((legacyBridgeName name).map (Numeral.read 10)).filter (· ≤ maxVNI)

def aliasPrefix : String := "twinet:"

variable (decode : String → Option String)

def ownerFromAlias (text : String) : String :=
  match pairKeyFromAlias decode text with
  | some key => key.lab
  | none =>
    if hasPrefix text aliasPrefix then .ofList (text.toList.drop aliasPrefix.length) else ""

/-- The lab an alias names, if it is one to act on. Without an alias it names none. -/
def bridgeOwnership (text : String) : Option String :=
  let trimmed := trimSpace text
  if trimmed = "" then some ""
  else if !hasPrefix trimmed aliasPrefix then none
  else if hasPrefix trimmed pairAliasPrefix then (pairKeyFromAlias decode trimmed).map (·.lab)
  else
    let owner := ownerFromAlias decode trimmed
    if owner = "" then none else some owner

/-! ### The scan and the removal -/

variable (live : String → Bool) (t : LinkTable)

def LinkTable.ports (index : Int) : Nat :=
  (t.links.filter fun l => l.masterIndex ≠ 0 ∧ l.masterIndex = index).length

def LinkTable.names : List String := t.links.map (·.name)

/-- One link of the scan. -/
def orphanBridge (link : BridgeLink) : Option OrphanBridge :=
  if !link.bridge then none
  else
    match bridgeOwnership decode link.aliasText with
    | none => none
    | some owner =>
      if owner ≠ "" ∧ live owner then none
      else if 0 < t.ports link.index then none
      else if link.masterIndex ≠ 0 then none
      else
        match multiplexPairName link.name with
        | some rest =>
          if "twvp" ++ String.ofList rest ∈ t.names then none else some ⟨link.name, owner, 0, 0⟩
        | none =>
          match legacyBridgeVNI link.name with
          | none => none
          | some vni => if vxlanName vni ∈ t.names then none else some ⟨link.name, owner, vni, 0⟩

def orphanBridges : List OrphanBridge :=
  (t.links.filterMap (orphanBridge decode live t)).insertionSort (·.name ≤ ·.name)

inductive RemoveError where
  | notTwinet
  | handle
  | resolve
  | notBridge
  | unreadable
  | claimed (owner : String)
  | list
  | attached (other : String)
  | delete
deriving DecidableEq, Repr

inductive Deletion where
  | done
  | notFound
  | failed

/-- What becomes of the calls to the kernel. -/
structure RemoveOutcomes where
  opened : Bool
  resolved : Bool
  listed : Bool
  deletion : Deletion

/-- Delete a bridge, and say which. There may be none of the name. -/
def removeOrphanBridge (o : RemoveOutcomes) (name : String) :
    Except RemoveError (Option BridgeLink) :=
  if multiplexPairName name = none ∧ legacyBridgeName name = none then .error .notTwinet
  else if !o.opened then .error .handle
  else if !o.resolved then .error .resolve
  else
    match t.links.find? (·.name = name) with
    | none => .ok none
    | some bridge =>
      if !bridge.bridge then .error .notBridge
      else
        match bridgeOwnership decode bridge.aliasText with
        | none => .error .unreadable
        | some owner =>
          if owner ≠ "" ∧ live owner then .error (.claimed owner)
          else if !o.listed then .error .list
          else
            match t.links.find? (·.masterIndex = bridge.index) with
            | some other => .error (.attached other.name)
            | none =>
              match o.deletion with
              | .done => .ok (some bridge)
              | .notFound => .ok none
              | .failed => .error .delete

/-! ### What both ask for -/

variable (link : BridgeLink)

/-- A bridge with a name of the kind, whose alias can be read and names no live lab. -/
def Unclaimed : Prop :=
  link.bridge = true ∧ ¬ (multiplexPairName link.name = none ∧ legacyBridgeName link.name = none) ∧
    ∃ owner, bridgeOwnership decode link.aliasText = some owner ∧ ¬ (owner ≠ "" ∧ live owner)

/-- The bridge has no master, and its tunnel, which it has a valid identifier for, is
    gone. -/
def Stranded : Prop :=
  link.masterIndex = 0 ∧
    match multiplexPairName link.name with
    | some rest => "twvp" ++ String.ofList rest ∉ t.names
    | none => ∃ vni, legacyBridgeVNI link.name = some vni ∧ vxlanName vni ∉ t.names

variable {decode live t link}

theorem LinkTable.ports_eq_zero_iff {index : Int} : t.ports index = 0 ↔
    ∀ other ∈ t.links, other.masterIndex ≠ 0 → other.masterIndex ≠ index := by
  simp [LinkTable.ports]

theorem exists_orphan_iff : (∃ b, orphanBridge decode live t link = some b) ↔
    Unclaimed decode live link ∧ Stranded t link ∧ t.ports link.index = 0 := by
  constructor
  · rintro ⟨b, h⟩
    revert h
    fun_cases orphanBridge decode live t link with
    | case7 hbridge owner hown hlive hports hmaster rest hpair hgone =>
      intro
      refine ⟨⟨by simpa using hbridge, by simp [hpair], owner, hown, hlive⟩, ?_, by omega⟩
      exact ⟨not_not.mp hmaster, by simpa [hpair] using hgone⟩
    | case10 hbridge owner hown hlive hports hmaster hpair vni hvni hgone =>
      intro
      have hname : legacyBridgeName link.name ≠ none := by
        intro hname
        simp [legacyBridgeVNI, hname] at hvni
      refine ⟨⟨by simpa using hbridge, by simp [hname], owner, hown, hlive⟩, ?_, by omega⟩
      exact ⟨not_not.mp hmaster, by simpa [hpair] using ⟨vni, hvni, hgone⟩⟩
    | _ => nofun
  · rintro ⟨⟨hbridge, -, owner, hown, hlive⟩, ⟨hmaster, hgone⟩, hports⟩
    cases hpair : multiplexPairName link.name with
    | some rest =>
      rw [hpair] at hgone
      simp [orphanBridge, *]
    | none =>
      rw [hpair] at hgone
      obtain ⟨vni, hvni, hgone⟩ := hgone
      simp [orphanBridge, *]

theorem orphanBridge_name {b : OrphanBridge} (h : orphanBridge decode live t link = some b) :
    b.name = link.name := by
  revert h
  fun_cases orphanBridge decode live t link with
  | case7 | case10 =>
    rintro ⟨⟩
    rfl
  | _ => nofun

theorem mem_orphanBridges {b : OrphanBridge} : b ∈ orphanBridges decode live t ↔
    ∃ link ∈ t.links, orphanBridge decode live t link = some b := by
  simp [orphanBridges, (perm_insertionSort _ _).mem_iff]

theorem LinkTable.eq_of_name {other : BridgeLink} (hmem : link ∈ t.links) (hother : other ∈ t.links)
    (h : other.name = link.name) : other = link :=
  inj_on_of_nodup_map t.distinct hother hmem h

/-- What the scan lists. -/
theorem listed_iff (hmem : link ∈ t.links) :
    (∃ b ∈ orphanBridges decode live t, b.name = link.name) ↔
      Unclaimed decode live link ∧ Stranded t link ∧ t.ports link.index = 0 := by
  rw [← exists_orphan_iff]
  constructor
  · rintro ⟨b, hb, hname⟩
    obtain ⟨other, hother, horphan⟩ := mem_orphanBridges.mp hb
    have hsame := LinkTable.eq_of_name hmem hother ((orphanBridge_name horphan).symm.trans hname)
    exact ⟨b, hsame ▸ horphan⟩
  · rintro ⟨b, horphan⟩
    exact ⟨b, mem_orphanBridges.mpr ⟨link, hmem, horphan⟩, orphanBridge_name horphan⟩

/-- What the second look lets be deleted. -/
theorem removeOrphanBridge_iff :
    (∃ o name, removeOrphanBridge decode live t o name = .ok (some link)) ↔
      link ∈ t.links ∧ Unclaimed decode live link ∧
        ∀ other ∈ t.links, other.masterIndex ≠ link.index := by
  constructor
  · rintro ⟨o, name, h⟩
    revert h
    fun_cases removeOrphanBridge decode live t o name with
    | case10 hname _ _ bridge hfind hbridge owner hown hlive _ hfree =>
      rintro ⟨⟩
      have hn : link.name = name := by simpa using find?_some hfind
      refine ⟨mem_of_find?_eq_some hfind, ⟨?_, hn ▸ hname, owner, hown, hlive⟩, ?_⟩
      · simpa using hbridge
      · simpa using hfree
    | _ => nofun
  · rintro ⟨hmem, ⟨hbridge, hname, owner, hown, hlive⟩, hfree⟩
    refine ⟨⟨true, true, true, .done⟩, link.name, ?_⟩
    have hsome : (t.links.find? (·.name = link.name)).isSome = true :=
      find?_isSome.mpr ⟨link, hmem, by simp⟩
    obtain ⟨found, hfound⟩ := Option.isSome_iff_exists.mp hsome
    have hsame := LinkTable.eq_of_name hmem (mem_of_find?_eq_some hfound)
      (by simpa using find?_some hfound)
    subst hsame
    have hnone : t.links.find? (·.masterIndex = found.index) = none := by
      simpa using hfree
    simp [removeOrphanBridge, *]

/-- When what is deleted is what a scan of the same table would list. -/
theorem orphan_reproved_iff (decode : String → Option String) (live : String → Bool)
    (present : LinkTable) :
    ((∀ o name link, removeOrphanBridge decode live present o name = .ok (some link) →
        ∃ b ∈ orphanBridges decode live present, b.name = link.name) ↔
      ∀ link ∈ present.links, Unclaimed decode live link →
        (∀ other ∈ present.links, other.masterIndex ≠ link.index) → Stranded present link) ∧
    ∀ b ∈ orphanBridges decode live present, ∃ link ∈ present.links, link.name = b.name ∧
      Unclaimed decode live link ∧ Stranded present link ∧
      ∀ other ∈ present.links, other.masterIndex ≠ 0 → other.masterIndex ≠ link.index := by
  refine ⟨⟨fun h link hmem hun hfree => ?_, fun h o name link hremove => ?_⟩, fun b hb => ?_⟩
  · obtain ⟨o, name, hremove⟩ := removeOrphanBridge_iff.mpr ⟨hmem, hun, hfree⟩
    exact ((listed_iff hmem).mp (h o name link hremove)).2.1
  · obtain ⟨hmem, hun, hfree⟩ := removeOrphanBridge_iff.mp ⟨o, name, hremove⟩
    have hports := LinkTable.ports_eq_zero_iff.mpr fun other hother _ => hfree other hother
    exact (listed_iff hmem).mpr ⟨hun, h link hmem hun hfree, hports⟩
  · obtain ⟨link, hmem, horphan⟩ := mem_orphanBridges.mp hb
    obtain ⟨hun, hstranded, hports⟩ := exists_orphan_iff.mp ⟨b, horphan⟩
    exact ⟨link, hmem, (orphanBridge_name horphan).symm, hun, hstranded,
      LinkTable.ports_eq_zero_iff.mp hports⟩

/-- A bridge that was listed and has been put under a master since is deleted. -/
theorem enslaved_bridge_deleted : ∃ (scanned present : LinkTable) (o : RemoveOutcomes)
    (link : BridgeLink), link ∈ present.links ∧ link.masterIndex = 1 ∧
    orphanBridges some (fun _ => false) scanned = [⟨link.name, "", 5, 0⟩] ∧
    removeOrphanBridge some (fun _ => false) present o link.name = .ok (some link) ∧
    orphanBridges some (fun _ => false) present = [] :=
  ⟨⟨[⟨"twbr5", "", 2, 0, true⟩], by decide⟩,
    ⟨[⟨"vrf0", "", 1, 0, false⟩, ⟨"twbr5", "", 2, 1, true⟩], by decide⟩,
    ⟨true, true, true, .done⟩, ⟨"twbr5", "", 2, 1, true⟩, by decide +kernel⟩

end Netx

end Twinet
