import Twinet.Deploy.Node

/-!
# The Shared Overlay

The links between two nodes share one VXLAN trunk. Wiring such a link makes sure
that the trunk is there and maps the VNI of the link on it. A trunk that does
not fit is replaced while it carries nothing; once it carries something, one
that differs in its port only is kept as it is, and one that differs in more is
refused. Nothing that nobody expects is ever removed here.

The observation is stricter: a link is dirty when its mapping or its trunk is
not exactly the expected one, and all links are when anything unexpected is
there. So an overlay can be left by a deployment and still be dirty.

## Main definitions

* `dirtyOverlayBindings`: A link whose binding is not as expected.
* `wireOverlay`: What wiring a link does.
* `Settles`: Wiring makes the overlay the expected one.

## Theorems

* `settles_wire`: Wiring a link changes nothing about whether the overlay
  settles.
* `overlay_clean_iff`: A run of wire steps leaves no link dirty exactly when the
  overlay it found settles.
-/

namespace Twinet

namespace Deploy

open List

/-- A mapping as it is observed, with the size and the port of its trunk. -/
structure LogicalBinding where
  vni : Nat
  vlan : Nat
  peer : String
  mtu : Nat
  port : Nat
  pair : String × String
deriving DecidableEq, Repr

def Carrier.binding (c : Carrier) (x : TunnelEntry) : LogicalBinding :=
  { vni := x.vni, vlan := x.vlan, peer := x.peer, mtu := c.trunk.mtu, port := c.trunk.port
    pair := c.pair }

open Carrier

/-- The mappings on shared trunks. -/
def HostOverlay.mapped (o : HostOverlay) : List LogicalBinding :=
  o.carriers.flatMap (fun c => c.entries.map c.binding)

/-- The mappings as they are observed: a tunnel of its own counts for a link that
    is not mapped on a shared trunk. -/
def HostOverlay.bindings (o : HostOverlay) : List LogicalBinding :=
  o.mapped ++ (o.legacy.filter (fun g => o.mapped.all (·.vni != g.vni))).map (fun g =>
    { vni := g.vni, vlan := 0, peer := g.peer, mtu := g.mtu, port := g.port, pair := ("", "") })

section Overlay

variable (e : Engine) (top : Topology)

/-- The cross-node cables of this node. -/
def crossLinks : List Link := top.links.filter (fun l => l.crossNode && l.onNode e.node)

variable (c : Carrier) (l : Link)

def remoteNode : String := if l.a.node = e.node then l.b.node else l.a.node

/-- The pair of nodes of a cable, in order. -/
def pairOf : String × String :=
  if remoteNode e l < e.node then (remoteNode e l, e.node) else (e.node, remoteNode e l)

def entryOf : TunnelEntry :=
  { vni := l.vni, vlan := e.vlan l, peer := e.peerUnderlay (remoteNode e l) }

def expectedBinding : LogicalBinding :=
  { vni := l.vni, vlan := e.vlan l, peer := e.peerUnderlay (remoteNode e l)
    mtu := (e.trunk (pairOf e l)).mtu, port := (e.trunk (pairOf e l)).port, pair := pairOf e l }

/-- A binding that cannot be accepted as it is: it is missing, doubled or
    different, its trunk is, or the host carries something nobody expects. -/
def dirtyOverlayBindings (o : HostOverlay) (vni : Nat) : Bool :=
  let links := crossLinks e top
  links.any (·.vni == vni) &&
    (links.any (fun l => l.vni == vni &&
        o.bindings.filter (·.vni == vni) != [expectedBinding e l]) ||
      o.bindings.any (fun b => links.all (·.vni != b.vni)) ||
      links.any (fun l => l.vni == vni &&
        (o.carriers.filter (·.pair == pairOf e l)).map (·.trunk) != [e.trunk (pairOf e l)]) ||
      o.carriers.any (fun c => links.all (fun l => pairOf e l != c.pair)))

/-- The trunk is what is wanted of it. -/
def fits : Bool :=
  c.sound && c.trunk.port == (e.trunk c.pair).port && c.trunk.mtu == (e.trunk c.pair).mtu

/-- The trunk carries something. -/
def Carrier.active : Bool := c.ports || !c.entries.isEmpty

/-- Map the link on the trunk and attach its port. -/
def Carrier.put : Carrier :=
  { c with ports := true, entries := entryOf e l :: c.entries.filter (·.vni != l.vni) }

/-- A trunk that fits, under the names it had. -/
def Carrier.refit : Carrier :=
  { c with
    sound := true
    trunk := { c.trunk with mtu := (e.trunk c.pair).mtu, port := (e.trunk c.pair).port } }

/-- A trunk that does not fit is replaced rather than kept or refused. -/
def replaces : Bool :=
  !fits e c && !(e.recoveryCompatibility && c.sound) && (!c.active || e.forceOverlayReconcile)

/-- Make sure of the trunk of a link and map the link on it. A trunk in use that
    differs in more than its port is refused. -/
def wireCarrier : Option Carrier → Option Carrier
  | none =>
    some (put e
      { pair := pairOf e l, trunk := e.trunk (pairOf e l), sound := true, ports := false
        entries := [] } l)
  | some c =>
    if replaces e c then some ((c.refit e).put e l)
    else if fits e c || c.sound && (e.recoveryCompatibility ||
        c.trunk.mtu == (e.trunk c.pair).mtu) then some (c.put e l)
    else none

/-- Wire a cross-node link on this host. -/
def wireOverlay (o : HostOverlay) : Option HostOverlay :=
  (wireCarrier e l (o.carriers.find? (·.pair == pairOf e l))).map fun c =>
    { carriers := c :: o.carriers.eraseP (·.pair == pairOf e l)
      legacy := if e.retainLegacyOverlays then o.legacy
        else o.legacy.filter (·.vni != l.vni) }

/-- The trunk of a pair is, or is made, exactly the expected one. -/
def carrierSettles : Bool :=
  c.trunk.bridge == (e.trunk c.pair).bridge && c.trunk.vxlan == (e.trunk c.pair).vxlan &&
    ((c.trunk.mtu == (e.trunk c.pair).mtu && c.trunk.port == (e.trunk c.pair).port) ||
      replaces e c)

/-- A trunk of a pair some link needs, that carries links of this pair only and
    settles. -/
structure ExpectedCarrier (c : Carrier) : Prop where
  pair : ∃ l ∈ crossLinks e top, pairOf e l = c.pair
  entry : ∀ x ∈ c.entries, ∃ l ∈ crossLinks e top, l.vni = x.vni ∧ pairOf e l = c.pair
  settles : carrierSettles e c = true

/-- Wiring makes the overlay exactly the expected one: there is one trunk for a
    pair, each of them is expected, and so is every tunnel from before. -/
structure Settles (o : HostOverlay) : Prop where
  carrier : ∀ c ∈ o.carriers, ExpectedCarrier e top c
  legacy : ∀ g ∈ o.legacy, ∃ l ∈ crossLinks e top, l.vni = g.vni
  distinct : (o.carriers.map (·.pair)).Nodup

/-- The link is mapped on the trunk of its pair, and nowhere else on it. -/
def Carried (o : HostOverlay) : Prop :=
  ∃ c ∈ o.carriers, c.pair = pairOf e l ∧
    c.entries.filter (·.vni == l.vni) = [entryOf e l] ∧
    (carrierSettles e c = true → c.trunk = e.trunk c.pair)

end Overlay

/-! ### One link -/

section Wire

variable {e : Engine} {top : Topology} {o o' : HostOverlay} {l k : Link} {c c' : Carrier}

theorem trunk_of_settles (h : carrierSettles e c = true) (hkeep : replaces e c = false) :
    c.trunk = e.trunk c.pair := by
  simp only [carrierSettles, hkeep, Bool.or_false, Bool.and_eq_true, beq_iff_eq] at h
  obtain ⟨⟨hbridge, hvxlan⟩, hmtu, hport⟩ := h
  cases ht : c.trunk
  cases hw : e.trunk c.pair
  simp_all

theorem wireCarrier_some (h : wireCarrier e l (some c) = some c') :
    c'.pair = c.pair ∧ c'.entries = entryOf e l :: c.entries.filter (·.vni != l.vni) ∧
      carrierSettles e c' = carrierSettles e c ∧ replaces e c' = false := by
  by_cases hrep : replaces e c = true
  · simp only [wireCarrier, if_pos hrep, Option.some.injEq] at h
    subst h
    have hfits : fits e ((c.refit e).put e l) = true := by
      simp [fits, put, refit]
    refine ⟨rfl, rfl, ?_, by simp [replaces, hfits]⟩
    simp [carrierSettles, put, refit, hrep]
  · rw [Bool.not_eq_true] at hrep
    simp only [wireCarrier, hrep, Bool.false_eq_true, if_false] at h
    split_ifs at h
    obtain rfl := Option.some.inj h
    -- A trunk that is kept is in use from now on, so it stays kept.
    have hkept : replaces e (c.put e l) = false := by
      have hactive : (c.put e l).active = true := rfl
      have hfits : fits e (c.put e l) = fits e c := rfl
      have hsound : (c.put e l).sound = c.sound := rfl
      simp only [replaces, hactive, hfits, hsound, Bool.not_true, Bool.false_or] at hrep ⊢
      cases hforce : e.forceOverlayReconcile with
      | false => simp
      | true => simpa [hforce] using hrep
    refine ⟨rfl, rfl, ?_, hkept⟩
    simp only [carrierSettles, hrep, hkept]
    rfl

theorem wireOverlay_cases (h : wireOverlay e l o = some o') :
    ∃ c' rest, o'.carriers = c' :: rest ∧ c'.pair = pairOf e l ∧ replaces e c' = false ∧
      ((o.carriers = rest ∧ (∀ x ∈ rest, x.pair ≠ pairOf e l) ∧ c'.entries = [entryOf e l] ∧
          carrierSettles e c' = true) ∨
        ∃ c, o.carriers.Perm (c :: rest) ∧ c.pair = pairOf e l ∧
          c'.entries = entryOf e l :: c.entries.filter (·.vni != l.vni) ∧
          carrierSettles e c' = carrierSettles e c) := by
  simp only [wireOverlay, Option.map_eq_some_iff] at h
  obtain ⟨c', hc', rfl⟩ := h
  refine ⟨c', _, rfl, ?_⟩
  cases hfind : o.carriers.find? (·.pair == pairOf e l) with
  | none =>
    -- the pair has no carrier yet: a new one is put in front
    rw [hfind, wireCarrier, Option.some.injEq] at hc'
    subst hc'
    have hnone : ∀ x ∈ o.carriers, ¬ (x.pair == pairOf e l) = true :=
      find?_eq_none.mp hfind
    have hrest : o.carriers.eraseP (·.pair == pairOf e l) = o.carriers :=
      eraseP_of_forall_not hnone
    rw [hrest]
    refine ⟨rfl, by simp [replaces, fits, put], .inl ⟨rfl, ?_, rfl, ?_⟩⟩
    · intro x hx
      simpa using hnone x hx
    · simp [carrierSettles, put]
  | some c =>
    rw [hfind] at hc'
    obtain ⟨hpair, hentries, hsettles, hkept⟩ := wireCarrier_some hc'
    have hown : c.pair = pairOf e l := by simpa using find?_some hfind
    refine ⟨hpair.trans hown, hkept, .inr ⟨c, ?_, hown, hentries, hsettles⟩⟩
    obtain ⟨-, as, bs, hsplit, hbefore⟩ := find?_eq_some_iff_append.mp hfind
    -- the carrier of the pair is the one that is taken out
    have herase : o.carriers.eraseP (·.pair == pairOf e l) = as ++ bs := by
      rw [hsplit, eraseP_append_right _ (by simpa using hbefore)]
      simp [hown]
    rw [herase, hsplit]
    exact perm_middle

theorem wireOverlay_legacy (hl : l ∈ crossLinks e top) (h : wireOverlay e l o = some o') :
    (∀ g ∈ o'.legacy, ∃ k ∈ crossLinks e top, k.vni = g.vni) ↔
      ∀ g ∈ o.legacy, ∃ k ∈ crossLinks e top, k.vni = g.vni := by
  simp only [wireOverlay, Option.map_eq_some_iff] at h
  obtain ⟨c', -, rfl⟩ := h
  simp only
  split_ifs
  · exact Iff.rfl
  · constructor
    · intro hall g hg
      by_cases hv : g.vni = l.vni
      · exact ⟨l, hl, hv.symm⟩
      · exact hall g (mem_filter.mpr ⟨hg, by simpa using hv⟩)
    · exact fun hall g hg => hall g (mem_of_mem_filter hg)

theorem Settles.perm {carriers : List Carrier} (hperm : o.carriers.Perm carriers) :
    Settles e top o ↔ (∀ c ∈ carriers, ExpectedCarrier e top c) ∧
      (∀ g ∈ o.legacy, ∃ l ∈ crossLinks e top, l.vni = g.vni) ∧
      (carriers.map (·.pair)).Nodup := by
  constructor
  · rintro ⟨h1, h2, h3⟩
    exact ⟨fun c hc => h1 c (hperm.mem_iff.mpr hc), h2, (hperm.map _).nodup_iff.mp h3⟩
  · rintro ⟨h1, h2, h3⟩
    exact ⟨fun c hc => h1 c (hperm.mem_iff.mp hc), h2, (hperm.map _).nodup_iff.mpr h3⟩

/-- Wiring decides nothing about whether the overlay settles. -/
theorem settles_wire (hl : l ∈ crossLinks e top) (h : wireOverlay e l o = some o') :
    Settles e top o' ↔ Settles e top o := by
  have hlegacy := wireOverlay_legacy hl h
  obtain ⟨c', rest, hcar, hpair, -, hcase⟩ := wireOverlay_cases h
  rw [Settles.perm (Perm.of_eq hcar), hlegacy, forall_mem_cons, map_cons,
    nodup_cons]
  rcases hcase with ⟨hold, hnone, hentries, hset⟩ | ⟨c, hperm, hown, hentries, hset⟩
  · -- A new trunk is the expected one.
    have hnew : ExpectedCarrier e top c' := by
      refine ⟨⟨l, hl, hpair.symm⟩, fun x hx => ?_, hset⟩
      rw [hentries, mem_singleton] at hx
      exact ⟨l, hl, by rw [hx]; rfl, hpair.symm⟩
    have hfresh : c'.pair ∉ rest.map (·.pair) := by
      intro hmem
      obtain ⟨x, hx, heq⟩ := mem_map.mp hmem
      exact hnone x hx (heq.trans hpair)
    rw [Settles.perm (Perm.of_eq hold)]
    exact ⟨fun ⟨h1, h2, h3⟩ => ⟨h1.2, h2, h3.2⟩, fun ⟨h1, h2, h3⟩ => ⟨⟨hnew, h1⟩, h2, hfresh, h3⟩⟩
  · have hsame : c'.pair = c.pair := hpair.trans hown.symm
    have hexp : ExpectedCarrier e top c' ↔ ExpectedCarrier e top c := by
      constructor
      · rintro ⟨h1, h2, h3⟩
        rw [hsame] at h1 h2
        refine ⟨h1, fun x hx => ?_, hset ▸ h3⟩
        by_cases hv : x.vni = l.vni
        · exact ⟨l, hl, hv.symm, hown.symm⟩
        · refine h2 x ?_
          rw [hentries]
          exact mem_cons_of_mem _ (mem_filter.mpr ⟨hx, by simpa using hv⟩)
      · rintro ⟨h1, h2, h3⟩
        refine ⟨hsame ▸ h1, fun x hx => ?_, hset ▸ h3⟩
        rw [hsame]
        rw [hentries] at hx
        rcases mem_cons.mp hx with rfl | hx
        · exact ⟨l, hl, rfl, hown.symm⟩
        · exact h2 x (mem_of_mem_filter hx)
    rw [Settles.perm hperm, forall_mem_cons, map_cons, nodup_cons, hexp, hsame]

theorem carried_wire_self (h : wireOverlay e l o = some o') : Carried e l o' := by
  obtain ⟨c', rest, hcar, hpair, hkept, hcase⟩ := wireOverlay_cases h
  refine ⟨c', by simp [hcar], hpair, ?_, fun hset => trunk_of_settles hset hkept⟩
  have hself : (entryOf e l).vni = l.vni := rfl
  rcases hcase with ⟨-, -, hentries, -⟩ | ⟨c, -, -, hentries, -⟩
  · simp [hentries, hself]
  · rw [hentries, filter_cons_of_pos (by simp [hself]), filter_filter]
    have hempty : c.entries.filter (fun x => x.vni == l.vni && x.vni != l.vni) = [] := by
      refine filter_eq_nil_iff.mpr fun x _ => ?_
      by_cases hv : x.vni = l.vni <;> simp [hv]
    rw [hempty]

theorem carried_wire_other (h : wireOverlay e l o = some o') (hne : k.vni ≠ l.vni)
    (hk : Carried e k o) : Carried e k o' := by
  obtain ⟨x, hx, hxpair, hxentry, hxtrunk⟩ := hk
  obtain ⟨c', rest, hcar, hpair, hkept, hcase⟩ := wireOverlay_cases h
  rcases hcase with ⟨hold, -⟩ | ⟨c, hperm, hown, hentries, hset⟩
  · exact ⟨x, by simp [hcar, ← hold, hx], hxpair, hxentry, hxtrunk⟩
  · rcases mem_cons.mp (hperm.mem_iff.mp hx) with rfl | hx
    · refine ⟨c', by simp [hcar], ?_, ?_, fun hs => trunk_of_settles hs hkept⟩
      · rw [hpair, ← hown, hxpair]
      · have hother : ((entryOf e l).vni == k.vni) = false := by
          simpa [entryOf] using hne.symm
        rw [hentries, filter_cons_of_neg (by simp [hother]), filter_filter, ← hxentry]
        refine filter_congr fun y _ => ?_
        by_cases hv : y.vni = k.vni
        · simp [hv, hne]
        · simp [hv]
    · exact ⟨x, by simp [hcar, hx], hxpair, hxentry, hxtrunk⟩

end Wire

/-! ### What is observed -/

section Observed

variable {e : Engine} {top : Topology} {o o' : HostOverlay} {l k : Link} {c : Carrier}

theorem eq_of_vni (hl : l ∈ crossLinks e top) (hk : k ∈ crossLinks e top)
    (h : l.vni = k.vni) : l = k :=
  inj_on_of_nodup_map top.distinctVni (mem_of_mem_filter hl)
    (mem_of_mem_filter hk) h

theorem dirty_eq_false_iff (hl : l ∈ crossLinks e top) :
    dirtyOverlayBindings e top o l.vni = false ↔
      o.bindings.filter (·.vni == l.vni) = [expectedBinding e l] ∧
        (∀ b ∈ o.bindings, ∃ k ∈ crossLinks e top, k.vni = b.vni) ∧
        (o.carriers.filter (·.pair == pairOf e l)).map (·.trunk) = [e.trunk (pairOf e l)] ∧
        ∀ c ∈ o.carriers, ∃ k ∈ crossLinks e top, pairOf e k = c.pair := by
  have hknown : (crossLinks e top).any (·.vni == l.vni) = true :=
    any_eq_true.mpr ⟨l, hl, beq_self_eq_true _⟩
  have hown : ∀ P : Link → Bool,
      (crossLinks e top).any (fun k => k.vni == l.vni && P k) = P l := by
    intro P
    rw [Bool.eq_iff_iff, any_eq_true]
    constructor
    · rintro ⟨k, hk, hp⟩
      simp only [Bool.and_eq_true, beq_iff_eq] at hp
      rw [← eq_of_vni hk hl hp.1]
      exact hp.2
    · exact fun hp => ⟨l, hl, by simp [hp]⟩
  unfold dirtyOverlayBindings
  simp only [hknown, Bool.true_and, hown, Bool.or_eq_false_iff, bne_eq_false_iff_eq]
  rw [and_assoc, and_assoc]
  refine and_congr Iff.rfl (and_congr ?_ (and_congr Iff.rfl ?_))
  · simp
  · simp

theorem filter_mapped (vni : Nat) :
    o.mapped.filter (·.vni == vni) =
      o.carriers.flatMap (fun c => (c.entries.filter (·.vni == vni)).map c.binding) := by
  rw [HostOverlay.mapped, filter_flatMap]
  refine flatMap_congr fun c _ => ?_
  rw [filter_map]
  rfl

theorem flatMap_filter_of_nil {A B : Type} (p : A → Bool) (f : A → List B) (xs : List A)
    (h : ∀ x ∈ xs, p x = false → f x = []) : xs.flatMap f = (xs.filter p).flatMap f := by
  induction xs with
  | nil => rfl
  | cons x rest ih =>
    have hrest := ih fun y hy => h y (mem_cons_of_mem _ hy)
    cases hp : p x with
    | true => rw [filter_cons_of_pos hp, flatMap_cons, flatMap_cons, hrest]
    | false =>
      rw [filter_cons_of_neg (by simp [hp]), flatMap_cons,
        h x mem_cons_self hp, nil_append, hrest]

theorem pairOf_ne (hl : l ∈ crossLinks e top) : pairOf e l ≠ ("", "") := by
  have hcross := (mem_filter.mp hl).2
  simp only [Bool.and_eq_true, Link.crossNode, Link.onNode, bne_iff_ne, Bool.or_eq_true,
    beq_iff_eq] at hcross
  obtain ⟨hne, hon⟩ := hcross
  have hremote : remoteNode e l ≠ e.node := by
    unfold remoteNode
    split_ifs with ha
    · exact fun hb => hne (ha.trans hb.symm)
    · exact ha
  intro heq
  unfold pairOf at heq
  split_ifs at heq
  · rw [Prod.mk.injEq] at heq
    exact hremote (heq.1.trans heq.2.symm)
  · rw [Prod.mk.injEq] at heq
    exact hremote (heq.2.trans heq.1.symm)

theorem carried_of_clean (hl : l ∈ crossLinks e top)
    (h : dirtyOverlayBindings e top o l.vni = false) : Carried e l o := by
  obtain ⟨hbind, -, htrunk, -⟩ := (dirty_eq_false_iff hl).mp h
  obtain ⟨c, hc, htrunk⟩ := map_eq_singleton_iff.mp htrunk
  have hmem : c ∈ o.carriers ∧ c.pair = pairOf e l := by
    have : c ∈ o.carriers.filter (·.pair == pairOf e l) := by simp [hc]
    simpa using this
  refine ⟨c, hmem.1, hmem.2, ?_, fun _ => by rw [htrunk, hmem.2]⟩
  -- The binding is not that of a tunnel from before, which belongs to no pair.
  have hmapped : o.mapped.filter (·.vni == l.vni) = [expectedBinding e l] := by
    rw [HostOverlay.bindings, filter_append] at hbind
    rcases append_eq_singleton_iff.mp hbind with ⟨-, hlegacy⟩ | ⟨hm, -⟩
    · exfalso
      have hin : expectedBinding e l ∈ [expectedBinding e l] := mem_singleton.mpr rfl
      rw [← hlegacy] at hin
      obtain ⟨g, -, heq⟩ := mem_map.mp (mem_of_mem_filter hin)
      exact pairOf_ne hl (congrArg LogicalBinding.pair heq).symm
    · exact hm
  rw [filter_mapped, flatMap_filter_of_nil (·.pair == pairOf e l), hc] at hmapped
  · simp only [flatMap_cons, flatMap_nil, append_nil] at hmapped
    obtain ⟨x, hx, heq⟩ := map_eq_singleton_iff.mp hmapped
    rw [hx]
    have hentry : x = entryOf e l := by
      have h1 := congrArg LogicalBinding.vni heq
      have h2 := congrArg LogicalBinding.vlan heq
      have h3 := congrArg LogicalBinding.peer heq
      cases x
      simp_all [entryOf, binding, expectedBinding]
    rw [hentry]
  · intro x hx hpair
    refine eq_nil_iff_forall_not_mem.mpr fun b hb => ?_
    have hall : b ∈ [expectedBinding e l] := by
      rw [← hmapped]
      exact mem_flatMap.mpr ⟨x, hx, hb⟩
    obtain ⟨y, -, rfl⟩ := mem_map.mp hb
    have hsame : x.pair = pairOf e l :=
      congrArg LogicalBinding.pair (mem_singleton.mp hall)
    simp [hsame] at hpair

theorem settles_of_clean (hne : crossLinks e top ≠ [])
    (h : ∀ l ∈ crossLinks e top, dirtyOverlayBindings e top o l.vni = false) :
    Settles e top o := by
  have hall : ∀ l ∈ crossLinks e top, _ := fun l hl => (dirty_eq_false_iff hl).mp (h l hl)
  obtain ⟨l₀, hl₀⟩ := exists_mem_of_ne_nil _ hne
  obtain ⟨-, hvni, -, hpairs⟩ := hall l₀ hl₀
  -- a pair has one trunk, and it is the expected one
  have htrunks : ∀ c ∈ o.carriers, o.carriers.filter (·.pair == c.pair) = [c] ∧
      c.trunk = e.trunk c.pair := by
    intro c hc
    obtain ⟨k, hk, hkpair⟩ := hpairs c hc
    obtain ⟨-, -, htrunk, -⟩ := hall k hk
    rw [hkpair] at htrunk
    obtain ⟨c₁, hc₁, ht⟩ := map_eq_singleton_iff.mp htrunk
    have hin : c ∈ o.carriers.filter (·.pair == c.pair) := by simp [hc]
    rw [hc₁, mem_singleton] at hin
    subst hin
    exact ⟨hc₁, ht⟩
  refine ⟨fun c hc => ⟨hpairs c hc, fun x hx => ?_, ?_⟩, fun g hg => ?_, ?_⟩
  · have hin : c.binding x ∈ o.bindings :=
      mem_append_left _ (mem_flatMap.mpr ⟨c, hc, mem_map_of_mem hx⟩)
    obtain ⟨k, hk, hkv⟩ := hvni _ hin
    obtain ⟨hbind, -⟩ := hall k hk
    have hown : c.binding x ∈ o.bindings.filter (·.vni == k.vni) := by
      simp [mem_filter, hin, hkv]
    rw [hbind, mem_singleton] at hown
    exact ⟨k, hk, hkv, (congrArg LogicalBinding.pair hown).symm⟩
  · simp [carrierSettles, (htrunks c hc).2]
  · -- a tunnel of its own is observed unless its link is mapped
    by_cases hseen : o.mapped.all (·.vni != g.vni) = true
    · exact hvni _ (mem_append_right _ (mem_map.mpr
        ⟨g, mem_filter.mpr ⟨hg, hseen⟩, rfl⟩))
    · simp only [all_eq_true, bne_iff_ne, not_forall, not_not] at hseen
      obtain ⟨b, hb, hbv⟩ := hseen
      obtain ⟨k, hk, hkv⟩ := hvni b (mem_append_left _ hb)
      exact ⟨k, hk, hkv.trans hbv⟩
  · rw [nodup_iff_count_le_one]
    intro pair
    by_cases hin : pair ∈ o.carriers.map (·.pair)
    · obtain ⟨c, hc, rfl⟩ := mem_map.mp hin
      rw [count, countP_map, countP_eq_length_filter]
      have hone := (htrunks c hc).1
      have hlen := congrArg length hone
      simpa [Function.comp_def] using hlen.le
    · rw [count_eq_zero_of_not_mem hin]
      exact Nat.zero_le 1

theorem clean_of_settles (hs : Settles e top o) (hl : l ∈ crossLinks e top)
    (hall : ∀ k ∈ crossLinks e top, Carried e k o) :
    dirtyOverlayBindings e top o l.vni = false := by
  obtain ⟨c, hc, hpair, hentries, htrunk⟩ := hall l hl
  have ht : c.trunk = e.trunk (pairOf e l) := hpair ▸ htrunk (hs.carrier c hc).settles
  -- One trunk of the pair, by the distinct pairs.
  have hone : o.carriers.filter (·.pair == pairOf e l) = [c] := by
    have hall : ∀ x ∈ o.carriers, (x.pair == pairOf e l) = (x == c) := by
      intro x hx
      rw [Bool.eq_iff_iff, beq_iff_eq, beq_iff_eq]
      constructor
      · exact fun hp => inj_on_of_nodup_map hs.distinct hx hc (hp.trans hpair.symm)
      · rintro rfl
        exact hpair
    rw [filter_congr hall, filter_beq, count_eq_one_of_mem hs.distinct.of_map hc]
    rfl
  have hmapped : o.mapped.filter (·.vni == l.vni) = [expectedBinding e l] := by
    rw [filter_mapped, flatMap_filter_of_nil (·.pair == pairOf e l), hone]
    · simp [hentries, binding, expectedBinding, entryOf, ht, hpair]
    · intro x hx hne
      rw [map_eq_nil_iff, filter_eq_nil_iff]
      intro y hy hv
      obtain ⟨k, hk, hkv, hkp⟩ := (hs.carrier x hx).entry y hy
      rw [beq_iff_eq] at hv
      rw [eq_of_vni hk hl (hkv.trans hv)] at hkp
      simp [hkp] at hne
  have hin : expectedBinding e l ∈ o.mapped :=
    mem_of_mem_filter (by rw [hmapped]; exact mem_singleton.mpr rfl)
  refine (dirty_eq_false_iff hl).mpr ⟨?_, ?_, ?_, fun c hc => (hs.carrier c hc).pair⟩
  · rw [HostOverlay.bindings, filter_append, hmapped]
    have hlegacy : filter (·.vni == l.vni)
        ((o.legacy.filter (fun g => o.mapped.all (·.vni != g.vni))).map (fun g =>
          ({ vni := g.vni, vlan := 0, peer := g.peer, mtu := g.mtu, port := g.port
             pair := ("", "") } : LogicalBinding))) = [] := by
      refine filter_eq_nil_iff.mpr fun b hb hv => ?_
      obtain ⟨g, hg, rfl⟩ := mem_map.mp hb
      have hunseen := all_eq_true.mp (mem_filter.mp hg).2 _ hin
      have heq : g.vni = l.vni := by simpa using hv
      simp [heq, expectedBinding] at hunseen
    rw [hlegacy, append_nil]
  · intro b hb
    rcases mem_append.mp hb with hb | hb
    · obtain ⟨x, hx, hb⟩ := mem_flatMap.mp hb
      obtain ⟨y, hy, rfl⟩ := mem_map.mp hb
      obtain ⟨k, hk, hkv, -⟩ := (hs.carrier x hx).entry y hy
      exact ⟨k, hk, hkv⟩
    · obtain ⟨g, hg, rfl⟩ := mem_map.mp hb
      exact hs.legacy g (mem_of_mem_filter hg)
  · simp [hone, ht]

/-- A run of wire steps that succeed, over links among which every dirty one is,
    leaves no link dirty exactly when the overlay it found settles. -/
theorem overlay_clean_iff {links : List Link} (hlinks : ∀ l ∈ links, l ∈ crossLinks e top)
    (hrest : ∀ l ∈ crossLinks e top, l ∉ links → dirtyOverlayBindings e top o l.vni = false)
    (hrun : links.foldlM (fun o l => wireOverlay e l o) o = some o') :
    (∀ l ∈ crossLinks e top, dirtyOverlayBindings e top o' l.vni = false) ↔
      crossLinks e top = [] ∨ Settles e top o := by
  -- What is carried and what settles, step by step.
  have hsteps : ∀ (links : List Link) (o : HostOverlay), (∀ l ∈ links, l ∈ crossLinks e top) →
      links.foldlM (fun o l => wireOverlay e l o) o = some o' →
      (Settles e top o' ↔ Settles e top o) ∧
        ∀ k ∈ crossLinks e top, k ∈ links ∨ Carried e k o → Carried e k o' := by
    intro links
    induction links with
    | nil =>
      intro o _ hrun
      obtain rfl := Option.some.inj hrun
      exact ⟨Iff.rfl, fun k _ hk => hk.resolve_left (by simp)⟩
    | cons l rest ih =>
      intro o hsub hrun
      rw [foldlM_cons, Option.bind_eq_bind, Option.bind_eq_some_iff] at hrun
      obtain ⟨o₁, hwire, hrun⟩ := hrun
      have hl := hsub l mem_cons_self
      obtain ⟨hset, hcar⟩ := ih o₁ (fun k hk => hsub k (mem_cons_of_mem _ hk)) hrun
      refine ⟨hset.trans (settles_wire hl hwire), fun k hk hwired => hcar k hk ?_⟩
      by_cases hv : k.vni = l.vni
      · rw [eq_of_vni hk hl hv]
        exact .inr (carried_wire_self hwire)
      · rcases hwired with hin | hcarried
        · rcases mem_cons.mp hin with rfl | hin
          · exact absurd rfl hv
          · exact .inl hin
        · exact .inr (carried_wire_other hwire hv hcarried)
  obtain ⟨hset, hcar⟩ := hsteps links o hlinks hrun
  constructor
  · intro hclean
    by_cases hne : crossLinks e top = []
    · exact .inl hne
    · exact .inr (hset.mp (settles_of_clean hne hclean))
  · rintro (hnone | hs) l hl
    · rw [hnone] at hl
      nomatch hl
    · refine clean_of_settles (hset.mpr hs) hl fun k hk => hcar k hk ?_
      by_cases hin : k ∈ links
      · exact .inl hin
      · exact .inr (carried_of_clean hk (hrest k hk hin))

end Observed

end Deploy

end Twinet
