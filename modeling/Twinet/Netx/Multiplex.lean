import Mathlib.Data.String.Basic
import Mathlib.Order.Interval.Finset.Nat
import Twinet.Lib.Base64
import Twinet.Lib.Probing
import Twinet.Lib.Strings

/-!
# Shared Tunnels

The tunnel between two nodes is one device, and the links it carries are told apart on
the bridge by a VLAN. Both ends compute which from the network identifiers of the links
alone, without a word to each other, and so they do the port of the tunnel, from the
names of the lab and the nodes.

The results on aliases are for every codec that reads back what it wrote. The code's
is `Base64.rawURLEncode`.

## Main definitions

* `assignOverlayVLANs`: The VLANs of the links of one tunnel.
* `PairKey.pairAlias`, `pairKeyFromAlias`: The owner of a device, written and read.
* `assignMultiplexPorts`: The ports of the pairs of a lab.

## Theorems

* `assignOverlayVLANs_spec`: When there is an assignment, and what it is a function of.
* `multiplex_pairs_agree`: What both ends agree on.
-/

namespace Twinet

namespace Netx

open Probing List

def maxVLANID : Nat := 4094

def maxVNI : Nat := 2 ^ 24 - 1

inductive VLANError where
  | invalid (vni : Nat)
  | tooMany (links : Nat)
  | unavailable (vni : Nat)
deriving DecidableEq, Repr

/-- The VLANs a network identifier tries, from its own place on and around. -/
def vlanCandidates (vni : Nat) : List Nat :=
  let candidate := (vni - 1) % maxVLANID + 1
  (range maxVLANID).map fun probe => (candidate + probe - 1) % maxVLANID + 1

def assignOverlayVLANs (vnis : List Nat) : Except VLANError (List (Nat × Nat)) :=
  match vnis.find? fun vni => vni = 0 ∨ maxVNI < vni with
  | some vni => .error (.invalid vni)
  | none =>
    let ordered := canonical vnis
    if maxVLANID < ordered.length then .error (.tooMany ordered.length)
    else
      match assign vlanCandidates [] ordered with
      | .ok out => .ok out
      | .error vni => .error (.unavailable vni)

/-- A network identifier tries every VLAN. -/
theorem toFinset_vlanCandidates (vni : Nat) :
    (vlanCandidates vni).toFinset = Finset.Icc 1 maxVLANID := by
  ext v
  simp only [vlanCandidates, maxVLANID, mem_toFinset, mem_map, mem_range,
    Finset.mem_Icc]
  constructor
  · rintro ⟨probe, -, rfl⟩
    omega
  · rintro ⟨hlow, hhigh⟩
    -- the probe that goes around from its own place to the one asked for
    refine ⟨(v - 1 + 4094 - (vni - 1) % 4094) % 4094, by omega, ?_⟩
    omega

/-- The two checks, and then the assignment of the sorted identifiers. -/
theorem assignOverlayVLANs_ok_iff {vnis : List Nat} {out : List (Nat × Nat)} :
    assignOverlayVLANs vnis = .ok out ↔
      (∀ v ∈ vnis, 0 < v ∧ v ≤ maxVNI) ∧ (canonical vnis).length ≤ maxVLANID ∧
        assign vlanCandidates [] (canonical vnis) = .ok out := by
  have hvalid : (∀ v ∈ vnis, 0 < v ∧ v ≤ maxVNI) ↔
      vnis.find? (fun vni => vni = 0 ∨ maxVNI < vni) = none := by
    simp only [find?_eq_none, decide_eq_true_eq]
    exact forall₂_congr fun v _ => by omega
  rw [hvalid]
  fun_cases assignOverlayVLANs with
  | case1 vni hfind => simp only [hfind, reduceCtorEq, false_and]
  | case2 hnone ordered hmany => exact iff_of_false (by simp) fun h => Nat.not_le.mpr hmany h.2.1
  | case3 hnone ordered hfew out hassign =>
    simp only [Except.ok.injEq, hnone, Nat.le_of_not_lt hfew, ordered, hassign, true_and]
  | case4 hnone ordered hfew vni hassign => simp only [hassign, ordered, reduceCtorEq, and_false]

/-- An assignment is made exactly if every identifier is valid and there are no more of
    them than VLANs. It gives different links different VLANs, all of them in the range,
    and is the same for every list of the same identifiers. -/
theorem assignOverlayVLANs_spec (vnis : List Nat) :
    ((∃ out, assignOverlayVLANs vnis = .ok out) ↔
      (∀ v ∈ vnis, 0 < v ∧ v ≤ maxVNI) ∧ vnis.dedup.length ≤ maxVLANID) ∧
    ∀ out, assignOverlayVLANs vnis = .ok out →
      (out.map Prod.fst).Nodup ∧ (∀ v, v ∈ out.map Prod.fst ↔ v ∈ vnis) ∧
      (out.map Prod.snd).Nodup ∧ (∀ p ∈ out, 1 ≤ p.2 ∧ p.2 ≤ maxVLANID) ∧
      ∀ vnis' : List Nat, (∀ v, v ∈ vnis' ↔ v ∈ vnis) → assignOverlayVLANs vnis' = .ok out := by
  simp only [assignOverlayVLANs_ok_iff, exists_and_left]
  constructor
  · rw [canonical, length_insertionSort]
    refine and_congr_right fun hvalid => and_iff_left_of_imp fun hcount => ?_
    -- there are as many candidates as VLANs, and no more links than that
    refine exists_assign fun v _ => ?_
    rw [toFinset_vlanCandidates, Nat.card_Icc, length_insertionSort]
    simpa using hcount
  · rintro out ⟨hvalid, hcount, hassign⟩
    obtain ⟨hkeys, hlinks, hvlans, htaken⟩ := assign_canonical hassign
    refine ⟨hkeys, hlinks, hvlans, fun p hp => ?_, fun vnis' hsame => ?_⟩
    · have hmem := mem_toFinset.mpr (htaken p hp)
      rwa [toFinset_vlanCandidates, Finset.mem_Icc] at hmem
    · rw [canonical_eq hsame]
      exact ⟨fun v hv => hvalid v ((hsame v).mp hv), hcount, hassign⟩

/-! ### Pairs of nodes -/

inductive PairError where
  | emptyLab
  | emptyNode
  | notDistinct (node : String)
  | tooLong
  | noPort (id : String)
deriving DecidableEq, Repr

structure PairKey where
  lab : String
  a : String
  b : String
deriving DecidableEq, Repr

variable (lab : String) (p : String × String)

def checkPair : Option PairError :=
  if lab = "" then some .emptyLab
  else if p.1 = "" ∨ p.2 = "" then some .emptyNode
  else if p.1 = p.2 then some (.notDistinct p.1)
  else none

/-- The two names, the smaller one first. -/
def ordered : String × String := (min p.1 p.2, max p.1 p.2)

def newPairKey (first second : String) : Except PairError PairKey :=
  match checkPair lab (first, second) with
  | some e => .error e
  | none => .ok ⟨lab, (ordered (first, second)).1, (ordered (first, second)).2⟩

def PairKey.identity (k : PairKey) : String := "\x00".intercalate [k.lab, k.a, k.b]

def pairAliasPrefix : String := "twinet:pair:"

/-- What names the owner of a device, in Base64. The kernel keeps 255 bytes. -/
def PairKey.pairAlias (encode : String → String) (k : PairKey) : Except PairError String :=
  let text := pairAliasPrefix ++ encode k.identity
  if 256 ≤ text.utf8ByteSize then .error .tooLong else .ok text

def splitNul (s : String) : List String := (s.toList.splitOn '\x00').map String.ofList

def pairKeyFromAlias (decode : String → Option String) (text : String) : Option PairKey :=
  if Strings.hasPrefix text pairAliasPrefix then
    match (decode (.ofList (text.toList.drop pairAliasPrefix.length))).map splitNul with
    | some [lab, first, second] => (newPairKey lab first second).toOption
    | _ => none
  else none

def multiplexPairID : String :=
  "\x00".intercalate [(ordered p).1, (ordered p).2]

def multiplexPortFirst : Nat := 20000

def multiplexPortLast : Nat := 60999

/-- The ports a pair tries. Of the hash of a text the first four bytes count. -/
def pairPortCandidates (hash : String → Nat) (lab id : String) : List Nat :=
  let span := multiplexPortLast - multiplexPortFirst + 1
  (range span).map fun probe =>
    multiplexPortFirst + hash ("\x00".intercalate ["port", lab, id, toString probe]) % span

def assignMultiplexPorts (hash : String → Nat) (lab : String) (pairs : List (String × String)) :
    Except PairError (List (String × Nat)) :=
  match pairs.findSome? (checkPair lab) with
  | some e => .error e
  | none =>
    match assign (pairPortCandidates hash lab) [] (canonical (pairs.map multiplexPairID)) with
    | .ok out => .ok out
    | .error id => .error (.noPort id)

theorem ordered_cases : ordered p = p ∨ ordered p = p.swap := by
  rcases le_total p.1 p.2 with h | h
  · exact .inl (by rw [ordered, min_eq_left h, max_eq_right h])
  · exact .inr (by rw [ordered, min_eq_right h, max_eq_left h]; rfl)

theorem checkPair_ordered : checkPair lab (ordered p) = checkPair lab p := by
  rcases ordered_cases p with h | h
  · rw [h]
  · by_cases heq : p.1 = p.2
    · simp [h, checkPair, heq]
    · simp [h, checkPair, heq, Ne.symm heq, or_comm]

theorem newPairKey_ordered :
    newPairKey lab (ordered p).1 (ordered p).2 = newPairKey lab p.1 p.2 := by
  have hidem : ordered (ordered p) = ordered p := by simp [ordered]
  rw [newPairKey, Prod.mk.eta, hidem, checkPair_ordered]
  rfl

/-- No name has the byte in it that separates them. -/
def NulFree (names : List String) : Prop := ∀ s ∈ names, '\x00' ∉ s.toList

theorem splitNul_intercalate {names : List String} (h : NulFree names) (hne : names ≠ []) :
    splitNul ("\x00".intercalate names) = names := by
  rw [splitNul, String.toList_intercalate, show "\x00".toList = ['\x00'] from rfl,
    splitOn_intercalate _ (by simpa [NulFree] using h) (by simpa using hne)]
  simp [Function.comp_def]

theorem NulFree.ordered {p : String × String} (h : NulFree [p.1, p.2]) :
    NulFree [(ordered p).1, (ordered p).2] := by
  rcases ordered_cases p with heq | heq
  · rwa [heq]
  · rw [heq]
    exact fun s hs => h s ((Perm.swap p.1 p.2 []).mem_iff.mp hs)

/-- What is read from an alias are the parts of the identity it was made of. -/
theorem pairKeyFromAlias_pairAlias {encode : String → String} {decode : String → Option String}
    (hcodec : ∀ s, decode (encode s) = some s) {k : PairKey} {text : String}
    (h : k.pairAlias encode = .ok text) :
    pairKeyFromAlias decode text =
      match splitNul k.identity with
      | [lab, first, second] => (newPairKey lab first second).toOption
      | _ => none := by
  rw [PairKey.pairAlias] at h
  split_ifs at h
  obtain rfl := Except.ok.inj h
  have hrest : String.ofList ((pairAliasPrefix ++ encode k.identity).toList.drop
      pairAliasPrefix.length) = encode k.identity := by
    simp [← String.length_toList]
  rw [pairKeyFromAlias, if_pos (by simp [Strings.hasPrefix]), hrest, hcodec, Option.map_some]
  rcases splitNul k.identity with _ | ⟨_, _ | ⟨_, _ | ⟨_, _ | _⟩⟩⟩ <;> rfl

theorem assignMultiplexPorts_ok_iff {hash : String → Nat} {lab : String}
    {pairs : List (String × String)} {out : List (String × Nat)} :
    assignMultiplexPorts hash lab pairs = .ok out ↔
      (∀ p ∈ pairs, checkPair lab p = none) ∧
        assign (pairPortCandidates hash lab) [] (canonical (pairs.map multiplexPairID)) =
          .ok out := by
  rw [← findSome?_eq_none_iff, assignMultiplexPorts]
  cases pairs.findSome? (checkPair lab) with
  | some e => simp
  | none => cases assign (pairPortCandidates hash lab) [] (canonical _) <;> simp

/-- Both ends of a tunnel compute the same key, and if no name has a NUL byte, it is
    recovered from its alias. An assignment gives different pairs different ports and is
    the same however the pairs are listed. -/
theorem multiplex_pairs_agree (encode : String → String) (decode : String → Option String)
    (hash : String → Nat) (lab : String) :
    (∀ first second, newPairKey lab first second = newPairKey lab second first) ∧
    ((∀ s, decode (encode s) = some s) → ∀ first second k text,
      NulFree [lab, first, second] → newPairKey lab first second = .ok k →
        k.pairAlias encode = .ok text → pairKeyFromAlias decode text = some k) ∧
    (∀ p q, NulFree [p.1, p.2] → NulFree [q.1, q.2] →
      multiplexPairID p = multiplexPairID q → ordered p = ordered q) ∧
    ∀ pairs out, assignMultiplexPorts hash lab pairs = .ok out →
      (out.map Prod.fst).Nodup ∧ (∀ id, id ∈ out.map Prod.fst ↔ id ∈ pairs.map multiplexPairID) ∧
      (out.map Prod.snd).Nodup ∧
      (∀ e ∈ out, multiplexPortFirst ≤ e.2 ∧ e.2 ≤ multiplexPortLast) ∧
      ∀ pairs', (∀ p, p ∈ pairs'.map ordered ↔ p ∈ pairs.map ordered) →
        assignMultiplexPorts hash lab pairs' = .ok out := by
  refine ⟨fun first second => ?_, fun hcodec first second k text hnames hk htext => ?_,
    fun p q hp hq hid => ?_, fun pairs out hout => ?_⟩
  · have hswap : ordered (first, second) = ordered (second, first) := by
      rw [ordered, ordered, min_comm, max_comm]
    rw [← newPairKey_ordered lab (first, second), hswap, newPairKey_ordered]
  · rw [← newPairKey_ordered lab (first, second)] at hk
    have hkey : k = ⟨lab, (ordered (first, second)).1, (ordered (first, second)).2⟩ := by
      rw [newPairKey_ordered, newPairKey] at hk
      split at hk
      · cases hk
      · exact (Except.ok.inj hk).symm
    subst hkey
    have hclean := forall_mem_cons.mp hnames
    have hpair := @NulFree.ordered (first, second) hclean.2
    rw [pairKeyFromAlias_pairAlias hcodec htext, PairKey.identity,
      splitNul_intercalate (forall_mem_cons.mpr ⟨hclean.1, hpair⟩) (by simp)]
    simp only [hk]
    rfl
  · have hsplit := congrArg splitNul hid
    rw [multiplexPairID, multiplexPairID, splitNul_intercalate hp.ordered (by simp),
      splitNul_intercalate hq.ordered (by simp)] at hsplit
    simp only [cons.injEq, and_true] at hsplit
    exact Prod.ext hsplit.1 hsplit.2
  · -- the ports are those of the sorted identifiers
    obtain ⟨hvalid, hassign⟩ := assignMultiplexPorts_ok_iff.mp hout
    obtain ⟨hkeys, hmem, hports, htaken⟩ := assign_canonical hassign
    refine ⟨hkeys, hmem, hports, fun e he => ?_, fun pairs' hsame => ?_⟩
    · obtain ⟨probe, -, hport⟩ := mem_map.mp (htaken e he)
      rw [← hport, multiplexPortFirst, multiplexPortLast]
      omega
    · refine assignMultiplexPorts_ok_iff.mpr ⟨fun p hp => ?_, ?_⟩
      · obtain ⟨q, hq, heq⟩ := mem_map.mp ((hsame _).mp (mem_map_of_mem hp))
        rw [← checkPair_ordered, ← heq, checkPair_ordered, hvalid q hq]
      · -- an identifier depends on the ordered pair only
        have hjoin : ∀ ps : List (String × String), ps.map multiplexPairID =
            (ps.map ordered).map fun o => "\x00".intercalate [o.1, o.2] := by
          intro ps
          rw [map_map]
          rfl
        rw [hjoin] at hassign ⊢
        rw [canonical_eq fun id => ?_]
        · exact hassign
        · rw [mem_map, mem_map]
          simp [hsame]

/-- The pair of a lab as the code writes and reads it. -/
theorem pair_recovered_base64 : ∃ k text,
    newPairKey "lab" "n2" "n1" = .ok k ∧ k.pairAlias Base64.rawURLEncode = .ok text ∧
      text = "twinet:pair:bGFiAG4xAG4y" ∧ pairKeyFromAlias Base64.rawURLDecode text = some k := by
  have hkey : newPairKey "lab" "n2" "n1" = .ok ⟨"lab", "n1", "n2"⟩ := by decide +kernel
  have htext : (⟨"lab", "n1", "n2"⟩ : PairKey).pairAlias Base64.rawURLEncode =
      .ok "twinet:pair:bGFiAG4xAG4y" := by decide +kernel
  exact ⟨_, _, hkey, htext, rfl,
    (multiplex_pairs_agree Base64.rawURLEncode Base64.rawURLDecode String.length "lab").2.1
      Base64.rawURLDecode_rawURLEncode "n2" "n1" _ _ (by simp [NulFree]) hkey htext⟩

/-- A lab with a NUL byte in its name, which no topology that was checked has. Its key
    has four parts when it is read back. -/
theorem lab_with_nul_not_recovered : ∃ k text,
    newPairKey "a\x00b" "n1" "n2" = .ok k ∧ k.pairAlias Base64.rawURLEncode = .ok text ∧
      pairKeyFromAlias Base64.rawURLDecode text = none := by
  have htext : (⟨"a\x00b", "n1", "n2"⟩ : PairKey).pairAlias Base64.rawURLEncode =
      .ok "twinet:pair:YQBiAG4xAG4y" := by decide +kernel
  refine ⟨_, _, by decide +kernel, htext, ?_⟩
  rw [pairKeyFromAlias_pairAlias Base64.rawURLDecode_rawURLEncode htext]
  decide +kernel

end Netx

end Twinet
