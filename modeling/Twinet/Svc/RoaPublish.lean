import Mathlib.Data.List.Pairwise
import Mathlib.Data.List.Sort
import Twinet.Ipam.Carve
import Twinet.Lib.Machine

/-!
# Publishing Route Origins

Every system of a student authorises its own prefixes, from any of its own addresses. Where
a request comes from says who asks. What is published is held in memory and in a file that
the validator reads, and the memory is changed first.

## Main definitions

* `authorityFor`: Who may publish what, and from where.
* `allowedFor`, `publish`: What is granted.
* `post`: One request, with its write.
* `Owned`: What an entry has to be.
* `Harmless`: A request that changes nothing if its write fails.

## Theorems

* `publish_ok_iff`: When a request is granted, and what it leaves.
* `published_confined`: What is published belongs to its owner, in every run.
* `published_durable_iff`: When the memory and the file agree.
-/

namespace Twinet

namespace Svc

open List Ipam

structure AS where
  asn : Nat
  student : Bool
  block : String
  blockV6 : String
  /-- The addresses of the interfaces, as they are written. -/
  ifaces : List String
deriving DecidableEq, Repr

structure Authority where
  asn : Nat
  blocks : List String
  /-- Where it may publish from: addresses, and networks. -/
  addrs : List (Addr ⊕ Pfx)
deriving DecidableEq, Repr

def Authority.owns (a : Authority) (addr : Addr) : Bool :=
  a.addrs.any fun
    | .inl own => own = addr
    | .inr net => net.Contains addr

structure PublishRequest where
  dest : String
  maxLength : Int
  asn : Nat
  withdraw : Bool
deriving DecidableEq, Repr

structure VRP where
  dest : String
  maxLength : Int
  asn : Nat
deriving DecidableEq, Repr

def VRP.key (v : VRP) : String × Nat := (v.dest, v.asn)

inductive PublishError where
  | notPrefix (text : String)
  | otherOrigin (asn named : Nat)
  | outside (text : String) (asn : Nat) (blocks : List String)
  | unknown (addr : Addr)
  | maxLength (length : Int) (dest : Pfx)
  | write
deriving DecidableEq, Repr

def masked (p : Pfx) : Pfx := ⟨⟨p.addr.is4, p.addr.value / 2 ^ p.host * 2 ^ p.host⟩, p.bits⟩

def maxLen (req : PublishRequest) (p : Pfx) : Int :=
  if req.maxLength = 0 then p.bits else req.maxLength

/-- What is published, and what the file says. -/
structure Publisher where
  published : List VRP
  file : List VRP
deriving DecidableEq, Repr

/-- A request, where it comes from, and whether the file can be replaced. -/
structure Post where
  addr : Addr
  req : PublishRequest
  writes : Bool
deriving DecidableEq, Repr

/-- How prefixes are read and written. -/
structure Prefixes where
  parsePrefix : String → Option Pfx
  text : Pfx → String

section Publish

variable (c : Prefixes) (authority : List Authority)

def AS.addrs (as : AS) : List Addr := as.ifaces.filterMap fun i => (c.parsePrefix i).map (·.addr)

/-- The systems. An address is on one interface. -/
structure Topology where
  ases : List AS
  distinct : (ases.flatMap (AS.addrs c)).Nodup

def authorityFor (top : Topology c) : List Authority :=
  (top.ases.filter fun as => as.student && as.block ≠ "").map fun as =>
    { asn := as.asn, blocks := as.block :: if as.blockV6 ≠ "" then [as.blockV6] else []
      addrs := (as.addrs c).map .inl }

/-- The prefix lies in a block. -/
def inside (block : String) (p : Pfx) : Bool :=
  (c.parsePrefix block).any fun b => b.Contains p.addr && b.bits ≤ p.bits

def allowedFor (addr : Addr) (req : PublishRequest) : Except PublishError Pfx :=
  match c.parsePrefix req.dest with
  | none => .error (.notPrefix req.dest)
  | some p =>
    match authority.find? (·.owns addr) with
    | none => .error (.unknown addr)
    | some a =>
      if req.asn ≠ a.asn then .error (.otherOrigin a.asn req.asn)
      else if a.blocks.any fun b => inside c b (masked p) then .ok (masked p)
      else .error (.outside req.dest a.asn a.blocks)

def publish (published : List VRP) (addr : Addr) (req : PublishRequest) :
    Except PublishError (List VRP) :=
  match allowedFor c authority addr req with
  | .error e => .error e
  | .ok p =>
    if maxLen req p < p.bits ∨ p.addr.bitLen < maxLen req p then
      .error (.maxLength (maxLen req p) p)
    else
      let v : VRP := ⟨c.text p, maxLen req p, req.asn⟩
      .ok ((published.filter (·.key ≠ v.key) ++ if req.withdraw then [] else [v]).insertionSort
        fun v w => v.asn < w.asn ∨ v.asn = w.asn ∧ v.dest ≤ w.dest)

variable (s : Publisher) (r : Post)

def post : Publisher × Option PublishError :=
  match publish c authority s.published r.addr r.req with
  | .error e => (s, some e)
  | .ok kept =>
    if r.writes then (⟨kept, kept⟩, none) else ({ s with published := kept }, some .write)

def publishers : Machine Publisher Post PublishError where
  step s r := (post c authority s r).map id Option.toList

/-- An entry is a system's own, with a length that makes sense. -/
def Owned (top : Topology c) (v : VRP) : Prop :=
  ∃ p, v.dest = c.text p ∧ p.bits ≤ v.maxLength ∧ v.maxLength ≤ p.addr.bitLen ∧
    ∃ as ∈ top.ases, as.asn = v.asn ∧ ∃ block ∈ [as.block, as.blockV6],
      ∃ b, c.parsePrefix block = some b ∧ ∀ a, p.Contains a → b.Contains a

/-- If the file cannot be replaced, then the request is refused, for its prefix or for its
    length, or it withdraws what is not published, or what it publishes is there already. -/
def Harmless : Prop :=
  r.writes = false → ∀ p, allowedFor c authority r.addr r.req = .ok p →
    p.bits ≤ maxLen r.req p → maxLen r.req p ≤ p.addr.bitLen →
    if r.req.withdraw then ∀ v ∈ s.published, v.key ≠ (c.text p, r.req.asn)
    else VRP.mk (c.text p) (maxLen r.req p) r.req.asn ∈ s.published ∧
      ∀ v ∈ s.published, v.key = (c.text p, r.req.asn) → v.maxLength = maxLen r.req p

/-- The entries in memory are those in the file, and after an error both are as before. -/
def Durable : Prop :=
  let (s', err) := post c authority s r
  (∀ v, v ∈ s'.published ↔ v ∈ s'.file) ∧
    (err.isSome → ∀ v, (v ∈ s'.published ↔ v ∈ s.published) ∧ (v ∈ s'.file ↔ v ∈ s.file))

theorem post_published :
    (post c authority s r).1.published = s.published ∨
      publish c authority s.published r.addr r.req = .ok (post c authority s r).1.published := by
  unfold post
  split
  · exact .inl rfl
  · next kept hok =>
    split_ifs
    · exact .inr hok
    · exact .inr hok

end Publish

variable {c : Prefixes} {top : Topology c} {authority : List Authority} {published kept : List VRP}
  {addr : Addr} {req : PublishRequest} {p : Pfx} {v : VRP}

/-- A longer prefix that starts in a block lies in it. -/
theorem contains_of_inside {block : String} (h : inside c block p = true) :
    ∃ b, c.parsePrefix block = some b ∧ ∀ a, p.Contains a → b.Contains a := by
  obtain ⟨b, hb, hin⟩ := (Option.any_eq_true _ _).mp h
  simp only [Bool.and_eq_true, decide_eq_true_eq] at hin
  refine ⟨b, hb, fun a ha => ⟨ha.1.trans hin.1.1, ?_⟩⟩
  have hlen : p.addr.bitLen = b.addr.bitLen := by simp only [Addr.bitLen, hin.1.1]
  have hsplit : 2 ^ b.host = 2 ^ p.host * 2 ^ (b.host - p.host) := by
    rw [← pow_add, Pfx.host, Pfx.host, hlen]
    congr 1
    omega
  rw [hsplit, ← Nat.div_div_eq_div_mul, ha.2, Nat.div_div_eq_div_mul, ← hsplit, hin.1.2]

/-- Who is allowed has the address, and publishes for itself. -/
theorem allowedFor_ok (h : allowedFor c (authorityFor c top) addr req = .ok p) :
    ∃ as ∈ top.ases, addr ∈ as.addrs c ∧ as.asn = req.asn ∧
      ∃ block ∈ [as.block, as.blockV6], inside c block p = true := by
  revert h
  fun_cases allowedFor c (authorityFor c top) addr req with
  | case4 p' _ a hfind hasn hblock =>
    rintro ⟨⟩
    obtain ⟨as, has, rfl⟩ := mem_map.mp (mem_of_find?_eq_some hfind)
    obtain ⟨block, hmem, hin⟩ := any_eq_true.mp hblock
    refine ⟨as, (mem_filter.mp has).1, ?_, (not_not.mp hasn).symm, block, ?_, hin⟩
    · simpa [Authority.owns] using find?_some hfind
    · simp only at hmem
      split_ifs at hmem <;> simp_all
  | _ => nofun

theorem owner_unique {as as' : AS} (has : as ∈ top.ases) (has' : as' ∈ top.ases)
    (h : addr ∈ as.addrs c) (h' : addr ∈ as'.addrs c) : as' = as := by
  by_contra hne
  have : Std.Symm (Function.onFun Disjoint (AS.addrs c)) := ⟨fun _ _ hd _ h h' => hd h' h⟩
  exact (nodup_flatMap.mp top.distinct).2.forall has' has hne h' h

/-- A request is granted if its prefix is allowed and its length makes sense. Of what was
    published it leaves all but the entry of the same prefix and system. -/
theorem publish_ok_iff : publish c authority published addr req = .ok kept ↔
    ∃ p, allowedFor c authority addr req = .ok p ∧ p.bits ≤ maxLen req p ∧
      maxLen req p ≤ p.addr.bitLen ∧ kept = (published.filter
        (·.key ≠ (c.text p, req.asn)) ++ if req.withdraw then []
          else [VRP.mk (c.text p) (maxLen req p) req.asn]).insertionSort
            fun v w => v.asn < w.asn ∨ v.asn = w.asn ∧ v.dest ≤ w.dest := by
  fun_cases publish c authority published addr req with
  | case1 e he => simp [he]
  | case2 p hp hlen =>
    simp only [reduceCtorEq, false_iff]
    rintro ⟨p', hp', hlow, hhigh, -⟩
    cases hp.symm.trans hp'
    omega
  | case3 p hp hlen =>
    rw [not_or, Int.not_lt, Int.not_lt] at hlen
    constructor
    · rintro ⟨⟩
      exact ⟨p, hp, hlen.1, hlen.2, rfl⟩
    · rintro ⟨p', hp', -, -, rfl⟩
      cases hp.symm.trans hp'
      rfl

theorem publish_ok (h : publish c authority published addr req = .ok kept) :
    ∃ p v, allowedFor c authority addr req = .ok p ∧ v = VRP.mk (c.text p) (maxLen req p) req.asn ∧
      p.bits ≤ v.maxLength ∧ v.maxLength ≤ p.addr.bitLen ∧
      kept ~ published.filter (·.key ≠ v.key) ++ if req.withdraw then [] else [v] := by
  obtain ⟨p, hp, hlow, hhigh, rfl⟩ := publish_ok_iff.mp h
  exact ⟨p, _, hp, rfl, hlow, hhigh, perm_insertionSort _ _⟩

theorem owned_publish (h : ∀ v ∈ published, Owned c top v)
    (hok : publish c (authorityFor c top) published addr req = .ok kept) :
    ∀ v ∈ kept, Owned c top v := by
  obtain ⟨p, w, hallowed, rfl, hlow, hhigh, hkept⟩ := publish_ok hok
  obtain ⟨as, has, -, hasn, block, hblock, hin⟩ := allowedFor_ok hallowed
  intro v hv
  rcases mem_append.mp (hkept.subset hv) with hv | hv
  · exact h v (mem_filter.mp hv).1
  · split_ifs at hv
    · cases hv
    · rw [mem_singleton.mp hv]
      exact ⟨p, rfl, hlow, hhigh, as, has, hasn, block, hblock, contains_of_inside hin⟩

theorem once_publish (h : (published.map VRP.key).Nodup)
    (hok : publish c authority published addr req = .ok kept) : (kept.map VRP.key).Nodup := by
  obtain ⟨p, w, -, -, -, -, hkept⟩ := publish_ok hok
  rw [(hkept.map _).nodup_iff, map_append, nodup_append]
  refine ⟨(filter_sublist.map _).nodup h, by split_ifs <;> simp, ?_⟩
  -- the entries kept are those of another prefix or system
  rintro k hk _ hnew rfl
  obtain ⟨v, hv, rfl⟩ := mem_map.mp hk
  have hother := of_decide_eq_true (mem_filter.mp hv).2
  split_ifs at hnew
  · cases hnew
  · exact hother (mem_singleton.mp hnew)

/-- A request that is granted leaves the entries of other systems. -/
theorem mem_publish_iff (h : publish c authority published addr req = .ok kept)
    (hv : v.asn ≠ req.asn) : v ∈ kept ↔ v ∈ published := by
  obtain ⟨p, w, -, rfl, -, -, hkept⟩ := publish_ok h
  have hnew : v ∉ if req.withdraw then [] else [VRP.mk (c.text p) (maxLen req p) req.asn] := by
    split_ifs
    · exact not_mem_nil
    · exact fun hmem => hv (by rw [mem_singleton.mp hmem])
  rw [hkept.mem_iff, mem_append, or_iff_left hnew, mem_filter]
  exact and_iff_left (decide_eq_true fun hkey => hv (Prod.mk.inj hkey).2)

/-- In every run of requests, what is published lies inside a block of the system it names,
    with a length between that of the prefix and that of an address and once for a prefix
    and a system, and a request changes entries of the one system only that has the address
    it comes from. -/
theorem published_confined (c : Prefixes) (top : Topology c) (posts : List Post) :
    let m := publishers c (authorityFor c top)
    let s := m.run ⟨[], []⟩ posts
    (∀ v ∈ s.published, Owned c top v) ∧ (s.published.map VRP.key).Nodup ∧
      ∀ r v, (v ∈ (m.step s r).1.published ↔ v ∈ s.published) ∨
        ∃ as ∈ top.ases, as.asn = v.asn ∧ r.addr ∈ as.addrs c ∧
          ∀ as' ∈ top.ases, r.addr ∈ as'.addrs c → as' = as := by
  intro m s
  have hpost := post_published c (authorityFor c top)
  refine ⟨m.invariant_run (fun s => ∀ v ∈ s.published, Owned c top v) (fun s r hs => ?_) _ posts
    (by simp), m.invariant_run (fun s => (s.published.map VRP.key).Nodup) (fun s r hs => ?_) _ posts
    nodup_nil, fun r v => ?_⟩
  · rcases hpost s r with hsame | hok
    · exact hsame ▸ hs
    · exact owned_publish hs hok
  · rcases hpost s r with hsame | hok
    · exact hsame ▸ hs
    · exact once_publish hs hok
  · rcases hpost s r with hsame | hok
    · exact .inl (by rw [← hsame]; rfl)
    · by_cases hv : v.asn = r.req.asn
      · obtain ⟨p, -, hallowed, -⟩ := publish_ok hok
        obtain ⟨as, has, haddr, hasn, -⟩ := allowedFor_ok hallowed
        exact .inr ⟨as, has, hasn.trans hv.symm, haddr, fun as' has' => owner_unique has has' haddr⟩
      · exact .inl (mem_publish_iff hok hv)

/-- The texts of two blocks and of an address in each. -/
def twoBlocks : Prefixes where
  parsePrefix := fun text =>
    [("10.1.0.0/16", ⟨⟨true, 0x0a010000⟩, 16⟩), ("10.1.0.1/24", ⟨⟨true, 0x0a010001⟩, 24⟩),
     ("10.2.0.0/16", ⟨⟨true, 0x0a020000⟩, 16⟩),
     ("10.2.0.1/24", ⟨⟨true, 0x0a020001⟩, 24⟩)].lookup text
  text := fun p => if p.addr.value = 0x0a010000 then "10.1.0.0/16" else "10.2.0.0/16"

def twoSystems : Topology twoBlocks where
  ases := [⟨1, true, "10.1.0.0/16", "", ["10.1.0.1/24"]⟩, ⟨2, true, "10.2.0.0/16", "",
    ["10.2.0.1/24"]⟩]
  distinct := by decide

/-- Both systems publish their blocks. The second tries that of the first. -/
theorem published_confined_two :
    let s := (publishers twoBlocks (authorityFor twoBlocks twoSystems)).run ⟨[], []⟩
      [⟨⟨true, 0x0a010001⟩, ⟨"10.1.0.0/16", 0, 1, false⟩, true⟩,
       ⟨⟨true, 0x0a020001⟩, ⟨"10.1.0.0/16", 0, 2, false⟩, true⟩,
       ⟨⟨true, 0x0a020001⟩, ⟨"10.2.0.0/16", 24, 2, false⟩, true⟩]
    s.published = [⟨"10.1.0.0/16", 16, 1⟩, ⟨"10.2.0.0/16", 24, 2⟩] ∧
      ∀ v ∈ s.published, Owned twoBlocks twoSystems v :=
  ⟨by decide +kernel, (published_confined twoBlocks twoSystems _).1⟩

/-- A request is harmless if what is granted would change no entry. -/
theorem harmless_iff {s : Publisher} {r : Post} : Harmless c authority s r ↔
    (r.writes = false → ∀ kept, publish c authority s.published r.addr r.req = .ok kept →
      ∀ v, v ∈ kept ↔ v ∈ s.published) := by
  have hkept : ∀ p v, (v ∈ (s.published.filter (·.key ≠ (c.text p, r.req.asn)) ++
      if r.req.withdraw then [] else [VRP.mk (c.text p) (maxLen r.req p) r.req.asn]).insertionSort
        fun v w => v.asn < w.asn ∨ v.asn = w.asn ∧ v.dest ≤ w.dest) ↔
      (v ∈ s.published ∧ v.key ≠ (c.text p, r.req.asn)) ∨
        (r.req.withdraw = false ∧ v = VRP.mk (c.text p) (maxLen r.req p) r.req.asn) := by
    intro p v
    rw [(perm_insertionSort _ _).mem_iff]
    cases r.req.withdraw <;> simp
  simp only [publish_ok_iff, Harmless]
  refine imp_congr_right fun _ => ⟨?_, fun h p hp hlow hhigh => ?_⟩
  · rintro h kept ⟨p, hp, hlow, hhigh, rfl⟩ v
    have hp := h p hp hlow hhigh
    rw [hkept]
    cases hw : r.req.withdraw with
    | true =>
      rw [hw, if_pos rfl] at hp
      simpa using hp v
    | false =>
      rw [hw, if_neg (by simp)] at hp
      obtain ⟨hthere, honly⟩ := hp
      refine ⟨?_, fun hv => ?_⟩
      · rintro (hv | ⟨-, rfl⟩)
        · exact hv.1
        · exact hthere
      · by_cases hkey : v.key = (c.text p, r.req.asn)
        · -- the entry of the key is the one that is published
          obtain ⟨hdest, hasn⟩ := Prod.mk.inj hkey
          refine .inr ⟨rfl, ?_⟩
          rw [← hdest, ← hasn, ← honly v hv hkey]
        · exact .inl ⟨hv, hkey⟩
  · have hsame := fun v => (hkept p v).symm.trans (h _ ⟨p, hp, hlow, hhigh, rfl⟩ v)
    cases hw : r.req.withdraw with
    | true =>
      rw [if_pos rfl]
      exact fun v hv hkey => by simpa [hw, hkey] using (hsame v).mpr hv
    | false =>
      rw [if_neg (by simp)]
      refine ⟨(hsame _).mp (.inr ⟨hw, rfl⟩), fun v hv hkey => ?_⟩
      rcases (hsame v).mpr hv with hother | ⟨-, rfl⟩
      · exact absurd hkey hother.2
      · rfl

/-- From a state in which memory and file agree, a request leaves them so and fails without
    a trace exactly if it is harmless. -/
theorem durable_iff {s : Publisher} {r : Post} (hsame : ∀ v, v ∈ s.published ↔ v ∈ s.file) :
    Durable c authority s r ↔ Harmless c authority s r := by
  rw [harmless_iff]
  unfold Durable post
  cases hpub : publish c authority s.published r.addr r.req with
  | error e => simp [hsame]
  | ok kept =>
    cases hw : r.writes with
    | false => simp [hsame]
    | true => simp

/-- After each of a run's requests the file holds what is published, and one that fails has
    changed neither, if and only if each one whose write fails is refused, withdraws what is
    not published or publishes what already is: the entries in memory are replaced before
    they are written. -/
theorem published_durable_iff (c : Prefixes) (authority : List Authority) (loaded : List VRP)
    (posts : List Post) :
    (publishers c authority).Along (Durable c authority) ⟨loaded, loaded⟩ posts ↔
      (publishers c authority).Along (Harmless c authority) ⟨loaded, loaded⟩ posts :=
  Machine.along_congr _ (fun s : Publisher => ∀ v, v ∈ s.published ↔ v ∈ s.file)
    (fun _ _ _ hdurable => hdurable.1) (fun _ _ => durable_iff) fun _ => Iff.rfl

/-- A system publishes its block, and the file cannot be replaced. -/
theorem publish_unwritten_kept :
    let p : Pfx := ⟨⟨true, 0x0a010000⟩, 16⟩
    let r : Post := ⟨⟨true, 0x0a010001⟩, ⟨"10.1.0.0/16", 0, 1, false⟩, false⟩
    post ⟨fun _ => some p, fun _ => "10.1.0.0/16"⟩
        [⟨1, ["10.1.0.0/16"], [.inl ⟨true, 0x0a010001⟩]⟩] ⟨[], []⟩ r =
      (⟨[⟨"10.1.0.0/16", 16, 1⟩], []⟩, some .write) := by
  decide

end Svc

end Twinet
