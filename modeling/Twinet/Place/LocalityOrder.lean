import Mathlib.Data.List.Induction
import Twinet.Lib.Keyed
import Twinet.Place.Locality

/-!
# ASes Are Placed Next to Their Neighbours

The order in which ASes are placed grows outwards: the next AS is the one with most
links to those already in the order. The counts are kept up to date as ASes are
taken, in loops over maps, and a map is visited in any order.

Links to ASes that are placed already but not in the order are not counted.

## Main definitions

* `FreeSet`: The ASes to be placed.
* `Visits`, `orderIn`: Ways to visit the maps, and the order one of them leads to.
* `linksTo`: How many links some ASes have to another one.
* `Chosen`: What the place of an AS in the order says of it.

## Theorems

* `next_perm`: The next AS does not depend on how the waiting ones are visited.
* `Grown.take`, `Grown.grow`, `Grown.seed`: What is known of the search is kept.
* `locality_order`: The order, however the maps are visited.
-/

namespace Twinet

namespace Place

open List

/-- ASes without repetition. No AS has the number zero. -/
structure FreeSet where
  asns : List Int
  distinct : asns.Nodup
  numbered : 0 ∉ asns

/-- How many links the ASes of a list have to an AS. -/
def linksTo (g : AffinityGraph) (order : List Int) (asn : Int) : Nat :=
  (order.map fun a => ((g.peersOf a).lookup asn).getD 0).sum

/-- How the loops of the search visit its maps: in any order, and in another one each
    time. Visiting the links in another order is visiting another table with the same
    links. Those of two ASes are added up whenever the two are compared as seeds. -/
structure Visits (g : AffinityGraph) where
  waiting : Frontier → List Int
  perm : ∀ o, (waiting o).Perm o.remaining
  graph : Frontier → AffinityGraph
  same : ∀ o a b, ((graph o).peersOf a).lookup b = (g.peersOf a).lookup b
  compared : Int → Int → AffinityGraph
  alike : ∀ x y a b, ((compared x y).peersOf a).lookup b = (g.peersOf a).lookup b

section Search

variable {g : AffinityGraph} (v : Visits g) (weight : Table Int Resources) (fuel : Nat)

/-- `Frontier.grow` with its maps visited in some order. -/
def Frontier.growIn : Nat → Frontier → Frontier
  | 0, o => o
  | fuel + 1, o =>
    let asn := Frontier.next weight { o with remaining := v.waiting o }
    if asn = 0 then o else growIn fuel (o.take (v.graph o) asn)

/-- Start from a seed that is left and follow its links. -/
def Frontier.seed (g : AffinityGraph) (o : Frontier) (a : Int) : Frontier :=
  if a ∈ o.remaining then Frontier.grow g weight fuel (o.take g a) else o

/-- `Frontier.seed` with its maps visited in some order. -/
def Frontier.seedIn (o : Frontier) (a : Int) : Frontier :=
  if a ∈ o.remaining then o.take (v.graph o) a |>.growIn v weight fuel else o

/-- `orderForLocality` with its maps visited in some order. -/
def orderIn (free : List Int) : List Int :=
  ((free.insertionSort fun x y => seedBefore (v.compared x y) weight x y = true).foldl
    (Frontier.seedIn v weight free.length) ⟨free, ∅, []⟩).order

end Search

/-! ### The seeds -/

theorem degree_congr {g g' : AffinityGraph} {a : Int}
    (h : ∀ b, (g'.peersOf a).lookup b = (g.peersOf a).lookup b) : g'.degree a = g.degree a := by
  have hperm := lookup_ext (g'.peersOf a).nodupKeys (g.peersOf a).nodupKeys fun b n =>
    (congrArg (n ∈ ·) (h b)).to_iff
  exact (hperm.map _).sum_nat

theorem seedBefore_compared {g : AffinityGraph} (v : Visits g) (weight : Table Int Resources)
    (x y : Int) : seedBefore (v.compared x y) weight x y = seedBefore g weight x y := by
  rw [seedBefore, seedBefore, degree_congr (v.alike x y x), degree_congr (v.alike x y y)]

/-! ### The next AS -/

section Pick

variable {l : Int → Nat} {w : Int → Int}

/-- One turn of the loop that looks for the next AS. -/
def pick (l : Int → Nat) (w : Int → Int) (best : Int × Nat × Int) (asn : Int) : Int × Nat × Int :=
  if l asn = 0 then best
  else if best.1 = 0 ∨ best.2.1 < l asn ∨ (l asn = best.2.1 ∧ best.2.2 < w asn) ∨
      (l asn = best.2.1 ∧ w asn = best.2.2 ∧ asn < best.1) then (asn, l asn, w asn)
  else best

theorem pick_comm {x y : Int} (hx : x ≠ 0) (hy : y ≠ 0) (best : Int × Nat × Int) :
    pick l w (pick l w best x) y = pick l w (pick l w best y) x := by
  obtain ⟨asn, links, containers⟩ := best
  simp only [pick]
  split_ifs <;> simp_all <;> omega

theorem foldl_pick {asns : List Int} (hzero : 0 ∉ asns) :
    (asns.foldl (pick l w) (0, 0, 0) = (0, 0, 0) ∧ ∀ b ∈ asns, l b = 0) ∨
      ∃ a ∈ asns, asns.foldl (pick l w) (0, 0, 0) = (a, l a, w a) ∧ 0 < l a ∧
        ∀ b ∈ asns, l b ≤ l a := by
  induction asns using reverseRecOn with
  | nil => exact .inl ⟨rfl, nofun⟩
  | append_singleton asns x ih =>
    rw [mem_append, not_or, mem_singleton] at hzero
    simp only [foldl_append, foldl_cons, foldl_nil, forall_mem_append, forall_mem_singleton]
    by_cases hx : l x = 0
    · simp only [pick, if_pos hx]
      rcases ih hzero.1 with ⟨hnone, hall⟩ | ⟨a, ha, hbest, hpos, hall⟩
      · exact .inl ⟨hnone, hall, hx⟩
      · exact .inr ⟨a, mem_append_left _ ha, hbest, hpos, hall, by omega⟩
    · right
      rcases ih hzero.1 with ⟨hnone, hall⟩ | ⟨a, ha, hbest, hpos, hall⟩
      · refine ⟨x, by simp, by simp [pick, hx, hnone], by omega, fun b hb => ?_, le_refl _⟩
        simp [hall b hb]
      · rw [hbest]
        by_cases hless : l a < l x ∨ (l x = l a ∧ w a < w x) ∨ (l x = l a ∧ w x = w a ∧ x < a)
        · refine ⟨x, by simp, by simp [pick, hx, hless], by omega, fun b hb => ?_, le_refl _⟩
          have := hall b hb
          omega
        · have hne : a ≠ 0 := fun h => hzero.1 (h ▸ ha)
          refine ⟨a, mem_append_left _ ha, by simp [pick, hx, hne, hless], hpos, hall, by omega⟩

end Pick

variable {g : AffinityGraph} {weight : Table Int Resources} {o o' : Frontier}

/-- The links of a waiting AS into the order, as they are counted. -/
def Frontier.count (o : Frontier) (asn : Int) : Nat := (o.linked.lookup asn).getD 0

/-- The same ASes in any order, with the same counts, have the same next one. -/
theorem next_perm (hzero : 0 ∉ o.remaining) (hperm : o'.remaining.Perm o.remaining)
    (hcount : ∀ b ∈ o.remaining, o'.count b = o.count b) : o'.next weight = o.next weight := by
  have hcomm : o'.remaining.foldl (pick o'.count (containersOf weight)) (0, 0, 0) =
      o.remaining.foldl (pick o'.count (containersOf weight)) (0, 0, 0) :=
    hperm.foldl_eq' (fun x hx y hy best => pick_comm (fun h => hzero (h ▸ hperm.subset hx))
      (fun h => hzero (h ▸ hperm.subset hy)) best) _
  have hsame : o.remaining.foldl (pick o'.count (containersOf weight)) (0, 0, 0) =
      o.remaining.foldl (pick o.count (containersOf weight)) (0, 0, 0) :=
    foldl_ext _ _ _ fun best b hb => by simp only [pick, hcount b hb]
  exact congrArg Prod.fst (hcomm.trans hsame)

/-! ### Taking an AS -/

theorem count_take {a b : Int} (hb : b ∈ (o.take g a).remaining) :
    (o.take g a).count b = o.count b + ((g.peersOf a).lookup b).getD 0 := by
  have hne : b ≠ a := by simpa using (mem_filter.mp hb).2
  have herase : ((o.linked.erase a).lookup b).getD 0 = o.count b := by
    rw [AList.lookup_erase_ne hne, Frontier.count]
  have hother : ∀ (t : Table Int Nat) (e : Σ _ : Int, Nat) k, k ≠ e.1 →
      ((if e.1 ∈ (o.take g a).remaining then t.insert e.1 ((t.lookup e.1).getD 0 + e.2)
        else t).lookup k).getD 0 = (t.lookup k).getD 0 := by
    intro t e k hk
    split_ifs
    · rw [AList.lookup_insert_ne hk]
    · rfl
  cases hlook : (g.peersOf a).lookup b with
  | none =>
    exact (Keyed.foldl_of_not_mem (r := fun t k => (AList.lookup k t).getD 0) hother
      (AList.lookup_eq_none.mp hlook) _).trans herase
  | some n =>
    refine Keyed.foldl_of_mem (r := fun t k => (AList.lookup k t).getD 0) (x := ⟨b, n⟩) hother
      (g.peersOf a).nodupKeys (AList.mem_lookup_iff.mp hlook) fun t ht => ?_
    simp only [herase] at ht
    simp [hb, ht]

/-- What the order chooses after some ASes: an AS without links to them where no AS that
    waits has any, or one with most links to them. -/
def Chosen (g : AffinityGraph) (before : List Int) (a : Int) (rest : List Int) : Prop :=
  (∀ b ∈ a :: rest, linksTo g before b = 0) ∨
    0 < linksTo g before a ∧ ∀ b ∈ rest, linksTo g before b ≤ linksTo g before a

theorem Chosen.mono {before rest rest' : List Int} {a : Int} (h : Chosen g before a rest)
    (hsub : rest' ⊆ rest) : Chosen g before a rest' :=
  h.imp (fun hnone b hb => hnone b (cons_subset_cons a hsub hb))
    (And.imp_right fun hmost b hb => hmost b (hsub hb))

/-- What is known of the search between its steps. -/
structure Grown (free : FreeSet) (g : AffinityGraph) (o : Frontier) : Prop where
  split : (o.order ++ o.remaining).Perm free.asns
  count : ∀ b ∈ o.remaining, o.count b = linksTo g o.order b
  chosen : ∀ before a after, o.order = before ++ a :: after →
    Chosen g before a (after ++ o.remaining)

/-- No AS that waits has a link into the order. -/
def Frontier.Ended (g : AffinityGraph) (o : Frontier) : Prop :=
  ∀ b ∈ o.remaining, linksTo g o.order b = 0

section Grown

variable {free : FreeSet} (h : Grown free g o)

include h

theorem Grown.numbered : 0 ∉ o.remaining := fun hmem =>
  free.numbered (h.split.subset (mem_append_right _ hmem))

theorem Grown.perm_take {a : Int} (ha : a ∈ o.remaining) :
    (a :: (o.take g a).remaining).Perm o.remaining := by
  have hnodup : o.remaining.Nodup := (h.split.nodup_iff.mpr free.distinct).of_append_right
  have hrest : o.remaining.erase a = (o.take g a).remaining :=
    (hnodup.erase_eq_filter a).trans (filter_congr fun x _ => Bool.eq_iff_iff.mpr (by simp))
  exact hrest ▸ (perm_cons_erase ha).symm

/-- A chosen AS lets the order grow. -/
theorem Grown.take {a : Int} (ha : a ∈ o.remaining) (hchosen : Chosen g o.order a o.remaining) :
    Grown free g (o.take g a) := by
  have hperm := h.perm_take ha
  have horder : (o.take g a).order = o.order ++ [a] := rfl
  refine ⟨?_, fun b hb => ?_, fun before x after heq => ?_⟩
  · rw [horder, append_assoc]
    exact (hperm.append_left _).trans h.split
  · rw [count_take hb, h.count b (mem_of_mem_filter hb), horder]
    simp [linksTo]
  · rw [horder] at heq
    rcases eq_nil_or_concat after with rfl | ⟨init, last, rfl⟩
    · obtain ⟨rfl, hlast⟩ := append_inj' heq rfl
      obtain rfl := singleton_inj.mp hlast
      exact hchosen.mono fun b hb => hperm.subset (mem_cons_of_mem _ hb)
    · rw [concat_eq_append, ← cons_append, ← append_assoc] at heq
      obtain ⟨hinit, hlast⟩ := append_inj' heq rfl
      obtain rfl := singleton_inj.mp hlast
      refine (h.chosen before x init hinit).mono ?_
      rw [concat_eq_append, append_assoc]
      exact (hperm.append_left _).subset

/-! ### The whole order -/

/-- Two searches that have come to the same point. -/
structure Alike (o' o : Frontier) : Prop where
  order : o'.order = o.order
  remaining : o'.remaining = o.remaining
  count : ∀ b ∈ o.remaining, o'.count b = o.count b

variable (v : Visits g)

omit h in
theorem Alike.take (h : Alike o' o) (a : Int) : Alike (o'.take (v.graph o') a) (o.take g a) := by
  have hremaining : (o'.take (v.graph o') a).remaining = (o.take g a).remaining := by
    simp only [Frontier.take, h.remaining]
  refine ⟨by simp only [Frontier.take, h.order], hremaining, fun b hb => ?_⟩
  rw [count_take (hremaining ▸ hb), count_take hb, v.same, h.count b (mem_of_mem_filter hb)]

variable (weight) in
/-- Links are followed until there are none, to the same ASes however the maps are
    visited. -/
theorem Grown.grow (halike : Alike o' o) {fuel : Nat} (hfuel : o.remaining.length ≤ fuel) :
    Grown free g (o.grow g weight fuel) ∧ (o.grow g weight fuel).Ended g ∧
      (o.grow g weight fuel).remaining ⊆ o.remaining ∧
      Alike (o'.growIn v weight fuel) (o.grow g weight fuel) := by
  induction fuel generalizing o o' with
  | zero =>
    have hnil : o.remaining = [] := length_eq_zero_iff.mp (Nat.le_zero.mp hfuel)
    exact ⟨h, fun b hb => by simp [Frontier.grow, hnil] at hb, Subset.refl _, halike⟩
  | succ fuel ih =>
    -- the order of the map does not decide the pick
    have hsame : Frontier.next weight { o' with remaining := v.waiting o' } = o.next weight :=
      next_perm h.numbered (halike.remaining ▸ v.perm o') halike.count
    rw [Frontier.growIn, Frontier.grow, hsame]
    rcases foldl_pick h.numbered with ⟨hbest, hall⟩ | ⟨a, ha, hbest, hpos, hall⟩
    · -- none that waits has a neighbour in the order
      have hnext : o.next weight = 0 := congrArg Prod.fst hbest
      simp only [hnext, if_true]
      exact ⟨h, fun b hb => (h.count b hb).symm.trans (hall b hb), Subset.refl _, halike⟩
    · have hnext : o.next weight = a := congrArg Prod.fst hbest
      have hne : a ≠ 0 := fun heq => h.numbered (heq ▸ ha)
      have hchosen : Chosen g o.order a o.remaining := by
        refine .inr ⟨h.count a ha ▸ hpos, fun b hb => ?_⟩
        rw [← h.count b hb, ← h.count a ha]
        exact hall b hb
      have hperm := h.perm_take ha
      have hlen := hperm.length_eq
      rw [length_cons] at hlen
      obtain ⟨hgrown, hended, hsub, hlike⟩ :=
        ih (h.take ha hchosen) (halike.take v a) (by omega)
      simp only [hnext, hne, if_false]
      exact ⟨hgrown, hended, fun b hb => hperm.subset (mem_cons_of_mem _ (hsub hb)), hlike⟩

/-- So does a seed and all its links lead to. -/
theorem Grown.seed (hended : o.Ended g) (halike : Alike o' o) (a : Int) {last : Frontier}
    (hlast : last = o.seed weight free.asns.length g a) :
    Grown free g last ∧ last.Ended g ∧ (∀ b ∈ last.remaining, b ∈ o.remaining ∧ b ≠ a) ∧
      Alike (o'.seedIn v weight free.asns.length a) last := by
  rw [Frontier.seed] at hlast
  rw [Frontier.seedIn, halike.remaining]
  by_cases ha : a ∈ o.remaining
  · rw [if_pos ha] at hlast ⊢
    have hchosen : Chosen g o.order a o.remaining :=
      .inl (forall_mem_cons.mpr ⟨hended a ha, hended⟩)
    have hfuel : (o.take g a).remaining.length ≤ free.asns.length := by
      have hlen := (h.perm_take ha).length_eq
      have hall := h.split.length_eq
      rw [length_cons] at hlen
      rw [length_append] at hall
      omega
    obtain ⟨hgrown, hend, hsub, hlike⟩ :=
      (h.take ha hchosen).grow weight v (halike.take v a) hfuel
    subst hlast
    exact ⟨hgrown, hend, fun b hb => by simpa [Frontier.take] using hsub hb, hlike⟩
  · rw [if_neg ha] at hlast ⊢
    subst hlast
    exact ⟨h, hended, fun b hb => ⟨hb, fun heq => ha (heq ▸ hb)⟩, halike⟩

end Grown

theorem grown_seeds (free : FreeSet) (weight : Table Int Resources) (v : Visits g)
    (seeds : List Int) {last : Frontier}
    (hlast : last = seeds.foldl (Frontier.seed weight free.asns.length g) ⟨free.asns, ∅, []⟩) :
    Grown free g last ∧ last.Ended g ∧ (∀ b ∈ last.remaining, b ∈ free.asns ∧ b ∉ seeds) ∧
      Alike (seeds.foldl (Frontier.seedIn v weight free.asns.length) ⟨free.asns, ∅, []⟩) last := by
  induction seeds using reverseRecOn generalizing last with
  | nil =>
    subst hlast
    exact ⟨⟨Perm.refl _, fun _ _ => rfl, fun before a after heq => by simp at heq⟩,
      fun _ _ => rfl, fun b hb => ⟨hb, not_mem_nil⟩, rfl, rfl, fun _ _ => rfl⟩
  | append_singleton seeds a ih =>
    obtain ⟨hgrown, hended, hleft, halike⟩ := ih rfl
    rw [foldl_append, foldl_cons, foldl_nil] at hlast ⊢
    obtain ⟨hgrown', hended', hsub, halike'⟩ := hgrown.seed v hended halike a hlast
    refine ⟨hgrown', hended', fun b hb => ?_, halike'⟩
    obtain ⟨hmem, hne⟩ := hsub b hb
    obtain ⟨hfree, hnot⟩ := hleft b hmem
    exact ⟨hfree, by simp [hnot, hne]⟩

/-- However its maps are visited, the search puts the free ASes into the same order, each
    once. Each AS is the start of a new group, where no AS that is left has a link to one
    before it, or has links to those before it, as many as any AS that is left. -/
theorem locality_order (free : FreeSet) (g : AffinityGraph) (weight : Table Int Resources)
    (v : Visits g) :
    orderIn v weight free.asns = orderForLocality free.asns g weight ∧
      (orderForLocality free.asns g weight).Perm free.asns ∧
      ∀ before a after, orderForLocality free.asns g weight = before ++ a :: after →
        Chosen g before a after := by
  obtain ⟨hgrown, -, hleft, halike⟩ := grown_seeds free weight v
    (free.asns.insertionSort fun x y => seedBefore g weight x y = true) rfl
  have hnil := eq_nil_iff_forall_not_mem.mpr fun b hb =>
    (hleft b hb).2 ((mem_insertionSort _).mpr (hleft b hb).1)
  have hsplit := hgrown.split
  have hchosen := hgrown.chosen
  simp only [hnil, append_nil] at hsplit hchosen
  refine ⟨?_, hsplit, hchosen⟩
  simp only [orderIn, seedBefore_compared]
  exact halike.order

/-- AS 1 has two links to AS 2 and one to AS 3. AS 3 has five links to AS 9, which is
    placed already. -/
def besidePlaced : AffinityGraph where
  peers := [⟨1, [⟨2, 2⟩, ⟨3, 1⟩, ⟨9, 9⟩].toAList⟩, ⟨2, [⟨1, 2⟩].toAList⟩,
    ⟨3, [⟨1, 1⟩, ⟨9, 5⟩].toAList⟩, ⟨9, [⟨1, 9⟩, ⟨3, 5⟩].toAList⟩].toAList
  svc := ∅
  legacySvc := ∅

def threeFree : FreeSet := ⟨[1, 2, 3], by decide, by decide⟩

/-- The waiting ASes are visited last first. -/
def lastFirst : Visits besidePlaced where
  waiting o := o.remaining.reverse
  perm o := reverse_perm o.remaining
  graph _ := besidePlaced
  same _ _ _ := rfl
  compared _ _ := besidePlaced
  alike _ _ _ _ := rfl

/-- Visiting the waiting ASes last first makes no difference. -/
theorem last_first_same_order :
    orderIn lastFirst ∅ threeFree.asns = [1, 2, 3] ∧
      Chosen besidePlaced [1] 2 [3] := by
  have horder : orderForLocality threeFree.asns besidePlaced ∅ = [1, 2, 3] := by decide +kernel
  obtain ⟨hsame, -, hchosen⟩ := locality_order threeFree besidePlaced ∅ lastFirst
  exact ⟨hsame.trans horder, hchosen [1] 2 [3] horder⟩

/-- AS 2 is placed before AS 3, which has more links to AS 1 and the placed AS. -/
theorem placed_links_ignored :
    orderForLocality [1, 2, 3] besidePlaced ∅ = [1] ++ 2 :: [3] ∧
      ¬ linksTo besidePlaced (9 :: [1]) 3 ≤ linksTo besidePlaced (9 :: [1]) 2 := by
  decide +kernel

end Place

end Twinet
