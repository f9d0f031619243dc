import Mathlib.Data.Finset.Card
import Mathlib.Data.List.Chain

/-!
# Depth First Search for a Cycle

A vertex is on the path, finished, or not seen yet. An edge back to the path is
a cycle; a vertex is finished when all it leads to is. What is finished is
therefore in an order in which everything comes after all it leads to, and the
place in that order is a rank that falls along every edge. The other way round,
what is reported ends in a cycle, and no cycle goes along a rank that falls.

## Main definitions

* `findCycle`: The search.
* `Ranked`: A rank falls along every edge.
* `gather`: All that some vertices lead to.

## Theorems

* `DepthFirst.findCycle_returns`: What is reported comes back to itself.
* `DepthFirst.findCycle_eq_none_iff`: No cycle is found exactly if there is a
  rank.
* `DepthFirst.gather_gathers`: What is gathered is closed, and nothing else.
-/

namespace DepthFirst

open List

variable {V : Type} [DecidableEq V] (needs : V → List V)

/-- Search from each vertex that is not seen yet, and stop at one on the path. -/
def visit (search : List V → V → Except (List V) (List V)) (path : List V) :
    List V → List V → Except (List V) (List V)
  | black, [] => .ok black
  | black, n :: rest =>
    if n ∈ path then .error (path ++ [n])
    else if n ∈ black then visit search path black rest
    else
      match search black n with
      | .error cycle => .error cycle
      | .ok black => visit search path black rest

/-- Search from one vertex, with so many to go at most. What comes back is a
    cycle, or all that is finished with the latest first. -/
def walk : Nat → List V → List V → V → Except (List V) (List V)
  | 0, path, _, id => .error (path ++ [id])
  | fuel + 1, path, black, id =>
    match visit (walk fuel (path ++ [id])) (path ++ [id]) black (needs id) with
    | .error cycle => .error cycle
    | .ok black => .ok (id :: black)

/-- A path never has more vertices than there are. -/
def findCycle (vs : List V) : Option (List V) :=
  match visit (walk needs vs.length []) [] [] vs with
  | .error cycle => some cycle
  | .ok _ => none

/-- A rank falls along every edge. -/
def Ranked (vs : List V) : Prop :=
  ∃ rank : V → Nat, ∀ v ∈ vs, ∀ n ∈ needs v, rank n < rank v

/-- Everything comes before all it leads to. -/
def Ordered : List V → Prop
  | [] => True
  | v :: rest => (∀ n ∈ needs v, n ∈ rest) ∧ Ordered rest

/-- A walk along the edges that ends where it began. -/
structure Cycle (c : List V) : Prop where
  walk : c.IsChain fun v n => n ∈ needs v
  closed : ∃ v mid, c = v :: (mid ++ [v])

/-- A walk that comes back to a vertex it has met. -/
structure Returns (vs path : List V) : Prop where
  walk : path.IsChain fun v n => n ∈ needs v
  sub : path ⊆ vs
  back : ∃ lead v mid, path = lead ++ v :: (mid ++ [v])

/-- Keep a vertex and then all it leads to, but for what is kept already. -/
def gather : Nat → List V → V → List V
  | 0, keep, _ => keep
  | fuel + 1, keep, id =>
    if id ∈ keep then keep else (needs id).foldl (gather fuel) (id :: keep)

/-- What is kept after some vertices and all they lead to were. -/
structure Gathers (keep ids keep' : List V) : Prop where
  keeps : keep ⊆ keep'
  roots : ids ⊆ keep'
  closed : ∀ v ∈ keep', v ∉ keep → ∀ n ∈ needs v, n ∈ keep'
  reached : ∀ v ∈ keep', v ∈ keep ∨
    ∃ id ∈ ids, Relation.ReflTransGen (fun v n => n ∈ needs v) id v

/-- One list of finished vertices after another. -/
structure Extends (black black' : List V) : Prop where
  keeps : black ⊆ black'
  ordered : Ordered needs black'

variable {needs}

omit [DecidableEq V] in
/-- From where it comes back to, the walk is a cycle. -/
theorem Returns.cycle {vs path : List V} (h : Returns needs vs path) :
    ∃ lead c, path = lead ++ c ∧ Cycle needs c := by
  obtain ⟨lead, v, mid, rfl⟩ := h.back
  exact ⟨lead, _, rfl, h.walk.right_of_append, v, mid, rfl⟩

/-! ### What is finished -/

variable {black : List V}

omit [DecidableEq V] in
theorem Ordered.closed (h : Ordered needs black) : ∀ v ∈ black, ∀ n ∈ needs v, n ∈ black := by
  induction black with
  | nil => simp
  | cons w rest ih =>
    intro v hv n hn
    rcases mem_cons.mp hv with rfl | hv
    · exact mem_cons_of_mem _ (h.1 n hn)
    · exact mem_cons_of_mem _ (ih h.2 v hv n hn)

theorem Ordered.rank (h : Ordered needs black) :
    ∀ v ∈ black, ∀ n ∈ needs v, black.reverse.idxOf n < black.reverse.idxOf v := by
  induction black with
  | nil => simp
  | cons w rest ih =>
    intro v hv n hn
    rw [reverse_cons]
    by_cases hmem : v ∈ rest
    · have hn' : n ∈ rest := h.2.closed v hmem n hn
      rw [idxOf_append_of_mem (mem_reverse.mpr hn'),
        idxOf_append_of_mem (mem_reverse.mpr hmem)]
      exact ih h.2 v hmem n hn
    · -- the first to come is the latest, and all it leads to is in the rest
      obtain rfl : v = w := (mem_cons.mp hv).resolve_right hmem
      have hn' : n ∈ rest.reverse := mem_reverse.mpr (h.1 n hn)
      rw [idxOf_append_of_mem hn',
        idxOf_append_of_notMem (fun hv => hmem (mem_reverse.mp hv))]
      exact Nat.lt_of_lt_of_le (idxOf_lt_length_of_mem hn') (Nat.le_add_right _ _)

theorem visit_ok {search : List V → V → Except (List V) (List V)} {path : List V}
    (hsearch : ∀ black black' n, Ordered needs black → search black n = .ok black' →
      Extends needs black black' ∧ n ∈ black') {rest black black' : List V}
    (hord : Ordered needs black) (h : visit search path black rest = .ok black') :
    Extends needs black black' ∧ ∀ n ∈ rest, n ∈ black' := by
  fun_induction visit search path black rest with
  | case1 =>
    cases h
    exact ⟨⟨Subset.refl _, hord⟩, by simp⟩
  | case3 black n rest _ hblack ih =>
    obtain ⟨hext, hrest⟩ := ih hord h
    exact ⟨hext, forall_mem_cons.mpr ⟨hext.keeps hblack, hrest⟩⟩
  | case5 black n rest _ _ next hrun ih =>
    obtain ⟨hnext, hn⟩ := hsearch black next n hord hrun
    obtain ⟨hext, hrest⟩ := ih hnext.ordered h
    exact ⟨⟨Subset.trans hnext.keeps hext.keeps, hext.ordered⟩,
      forall_mem_cons.mpr ⟨hext.keeps hn, hrest⟩⟩
  | _ => cases h

theorem walk_ok (fuel : Nat) : ∀ (path black black' : List V) (id : V), Ordered needs black →
    walk needs fuel path black id = .ok black' →
    Extends needs black black' ∧ id ∈ black' := by
  induction fuel with
  | zero =>
    intro path black black' id _ h
    cases h
  | succ fuel ih =>
    intro path black black' id hord h
    rw [walk] at h
    cases hrun : visit (walk needs fuel (path ++ [id])) (path ++ [id]) black (needs id) with
    | error cycle =>
      rw [hrun] at h
      cases h
    | ok next =>
      rw [hrun] at h
      cases h
      obtain ⟨hext, hneeds⟩ := visit_ok (ih (path ++ [id])) hord hrun
      exact ⟨⟨subset_cons_of_subset _ hext.keeps, hneeds, hext.ordered⟩,
        mem_cons_self⟩

/-! ### What is reported -/

section Reported

variable {vs : List V} (hclosed : ∀ v ∈ vs, ∀ n ∈ needs v, n ∈ vs)

omit hclosed in
theorem visit_error {search : List V → V → Except (List V) (List V)} {path rest cycle : List V}
    {Q : List V → Prop} (hback : ∀ n ∈ rest, n ∈ path → Q (path ++ [n]))
    (hsearch : ∀ black, ∀ n ∈ rest, n ∉ path → ∀ c, search black n = .error c → Q c)
    {black : List V} (h : visit search path black rest = .error cycle) : Q cycle := by
  fun_induction visit search path black rest with
  | case1 => cases h
  | case2 _ n _ hpath =>
    cases h
    exact hback n mem_cons_self hpath
  | case4 black n _ hpath _ c hrun =>
    cases h
    exact hsearch black n mem_cons_self hpath _ hrun
  | case3 _ _ _ _ _ ih | case5 _ _ _ _ _ _ _ ih =>
    exact ih (fun m hm => hback m (mem_cons_of_mem _ hm))
      (fun black m hm => hsearch black m (mem_cons_of_mem _ hm)) h

include hclosed in
theorem walk_error (fuel : Nat) : ∀ (path black : List V) (id : V) (cycle : List V),
    (path ++ [id]).IsChain (fun v n => n ∈ needs v) → (path ++ [id]).Nodup → path ++ [id] ⊆ vs →
    vs.length ≤ path.length + fuel → walk needs fuel path black id = .error cycle →
    Returns needs vs cycle := by
  induction fuel with
  | zero =>
    -- a path with all the vertices there are has no room for another
    intro path black id cycle _ hnodup hsub hfuel _
    have hle := (subperm_of_subset hnodup hsub).length_le
    rw [length_append, length_singleton] at hle
    omega
  | succ fuel ih =>
    intro path black id cycle hwalk hnodup hsub hfuel h
    have hid : id ∈ vs := hsub mem_concat_self
    -- one edge further is still a walk
    have hedge : ∀ n ∈ needs id, (path ++ [id] ++ [n]).IsChain fun v n => n ∈ needs v := by
      intro n hn
      refine hwalk.append (isChain_singleton n) ?_
      rw [getLast?_concat]
      rintro _ ⟨⟩ _ ⟨⟩
      exact hn
    have hall : ∀ n ∈ needs id, path ++ [id] ++ [n] ⊆ vs := fun n hn =>
      append_subset.mpr ⟨hsub, cons_subset.mpr ⟨hclosed id hid n hn, nil_subset _⟩⟩
    rw [walk] at h
    cases hrun : visit (walk needs fuel (path ++ [id])) (path ++ [id]) black (needs id) with
    | ok next =>
      rw [hrun] at h
      cases h
    | error c =>
      rw [hrun] at h
      cases h
      refine visit_error (fun n hn hmem => ⟨hedge n hn, hall n hn, ?_⟩)
        (fun black n hn hnot c hc => ?_) hrun
      · obtain ⟨lead, rest, heq⟩ := append_of_mem hmem
        exact ⟨lead, n, rest, by rw [heq, append_assoc, cons_append]⟩
      · refine ih _ black n c (hedge n hn) ?_ (hall n hn) ?_ hc
        · rw [nodup_append_comm]
          exact nodup_cons.mpr ⟨hnot, hnodup⟩
        · rw [length_append, length_singleton]
          omega

include hclosed in
/-- What is reported comes back to itself. -/
theorem findCycle_returns {path : List V} (h : findCycle needs vs = some path) :
    Returns needs vs path := by
  revert h
  fun_cases findCycle needs vs with
  | case2 => nofun
  | case1 cycle hrun =>
    rintro ⟨⟩
    refine visit_error (fun n _ hn => absurd hn not_mem_nil) (fun black n hn _ c hc => ?_) hrun
    exact walk_error hclosed vs.length [] black n c (isChain_singleton n)
      (nodup_singleton n) (cons_subset.mpr ⟨hn, nil_subset _⟩) (by simp) hc

omit [DecidableEq V] hclosed in
/-- No cycle goes along a rank that falls. -/
theorem Cycle.not_falling {c : List V} (h : Cycle needs c) (rank : V → Nat)
    (hrank : ∀ v ∈ c, ∀ n ∈ needs v, rank n < rank v) : False := by
  obtain ⟨v, mid, rfl⟩ := h.closed
  have hfall : (v :: (mid ++ [v])).IsChain fun a b => rank b < rank a :=
    h.walk.imp_of_mem_imp fun a b ha _ hb => hrank a ha b hb
  have hmap : ((v :: (mid ++ [v])).map rank).IsChain (· > ·) := (isChain_map rank).mpr hfall
  rw [map_cons] at hmap
  exact lt_irrefl _ (hmap.rel_cons (mem_map_of_mem mem_concat_self))

include hclosed in
/-- Nothing is found exactly if some rank falls. -/
theorem findCycle_eq_none_iff : findCycle needs vs = none ↔ Ranked needs vs := by
  constructor
  · fun_cases findCycle needs vs with
    | case1 => nofun
    | case2 black hrun =>
      rintro -
      have hnil : Ordered needs [] := trivial
      obtain ⟨hext, hall⟩ := visit_ok (walk_ok vs.length []) hnil hrun
      exact ⟨fun v => black.reverse.idxOf v, fun v hv => hext.ordered.rank v (hall v hv)⟩
  · rintro ⟨rank, hrank⟩
    cases h : findCycle needs vs with
    | none => rfl
    | some path =>
      have hreturns := findCycle_returns hclosed h
      obtain ⟨lead, c, rfl, hcycle⟩ := hreturns.cycle
      exact (hcycle.not_falling rank fun v hv =>
        hrank v (hreturns.sub (mem_append_right _ hv))).elim

end Reported

/-! ### All that is led to -/

section Gathered

variable {vs : List V}

omit [DecidableEq V] in
theorem Gathers.trans {keep keep' keep'' ids ids' : List V} (h : Gathers needs keep ids keep')
    (h' : Gathers needs keep' ids' keep'') : Gathers needs keep (ids ++ ids') keep'' where
  keeps := Subset.trans h.keeps h'.keeps
  roots := append_subset.mpr ⟨Subset.trans h.roots h'.keeps, h'.roots⟩
  closed v hv hnot n hn := by
    by_cases hmem : v ∈ keep'
    · exact h'.keeps (h.closed v hmem hnot n hn)
    · exact h'.closed v hv hmem n hn
  reached v hv := by
    rcases h'.reached v hv with hmem | ⟨r, hr, hpath⟩
    · rcases h.reached v hmem with hkeep | ⟨r, hr, hpath⟩
      · exact .inl hkeep
      · exact .inr ⟨r, mem_append_left _ hr, hpath⟩
    · exact .inr ⟨r, mem_append_right _ hr, hpath⟩

theorem gathers_foldl {search : List V → V → List V} {bound : Nat}
    (hsearch : ∀ keep, ∀ id ∈ vs, (vs.toFinset \ keep.toFinset).card < bound →
      Gathers needs keep [id] (search keep id)) :
    ∀ {ids keep : List V}, ids ⊆ vs → (vs.toFinset \ keep.toFinset).card < bound →
      Gathers needs keep ids (ids.foldl search keep) := by
  intro ids
  induction ids with
  | nil =>
    intro keep _ _
    exact ⟨Subset.refl _, nil_subset _, fun v hv hnot => absurd hv hnot,
      fun v hv => .inl hv⟩
  | cons id ids ih =>
    intro keep hsub hbound
    have hfirst := hsearch keep id (hsub mem_cons_self) hbound
    refine hfirst.trans (ih (fun v hv => hsub (mem_cons_of_mem _ hv)) ?_)
    -- with more kept, fewer are left
    refine lt_of_le_of_lt (Finset.card_le_card (Finset.sdiff_subset_sdiff ?_ ?_)) hbound
    · exact Finset.Subset.refl _
    · exact fun v hv => mem_toFinset.mpr (hfirst.keeps (mem_toFinset.mp hv))

/-- With enough fuel all that is led to is kept. -/
theorem gather_gathers (hclosed : ∀ v ∈ vs, ∀ n ∈ needs v, n ∈ vs) (fuel : Nat) :
    ∀ (keep : List V), ∀ id ∈ vs, (vs.toFinset \ keep.toFinset).card < fuel →
    Gathers needs keep [id] (gather needs fuel keep id) := by
  induction fuel with
  | zero =>
    intro keep id _ h
    exact absurd h (Nat.not_lt_zero _)
  | succ fuel ih =>
    intro keep id hid hfuel
    rw [gather]
    by_cases hmem : id ∈ keep
    · rw [if_pos hmem]
      exact ⟨Subset.refl _, cons_subset.mpr ⟨hmem, nil_subset _⟩,
        fun v hv hnot => absurd hv hnot, fun v hv => .inl hv⟩
    · rw [if_neg hmem]
      -- one more node is kept, so less fuel is enough
      have hfewer : (vs.toFinset \ (id :: keep).toFinset).card < fuel := by
        refine Nat.lt_of_lt_of_le (Finset.card_lt_card ?_) (Nat.lt_succ_iff.mp hfuel)
        rw [toFinset_cons, Finset.sdiff_insert]
        exact Finset.erase_ssubset (by simp [hid, hmem])
      -- the needs of the node are visited with the node kept
      have hrest := gathers_foldl ih (hclosed id hid) hfewer
      refine ⟨fun v hv => hrest.keeps (mem_cons_of_mem _ hv),
        cons_subset.mpr ⟨hrest.keeps mem_cons_self, nil_subset _⟩, ?_, ?_⟩
      · intro v hv hnot n hn
        by_cases heq : v = id
        · subst heq
          exact hrest.roots hn
        · exact hrest.closed v hv (fun hv => (mem_cons.mp hv).elim heq hnot) n hn
      · intro v hv
        rcases hrest.reached v hv with hv | ⟨r, hr, hpath⟩
        · rcases mem_cons.mp hv with rfl | hv
          · exact .inr ⟨v, mem_singleton_self _, .refl⟩
          · exact .inl hv
        · exact .inr ⟨id, mem_singleton_self _, .head hr hpath⟩

end Gathered

end DepthFirst
