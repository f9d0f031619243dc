import Mathlib.Data.List.Induction
import Twinet.Agent.Lineage
import Twinet.Lib.Fallible

/-!
# The Generations of a Run

What the lineage of a lab comes to over a whole run of requests.

The lineage can be read off the history: it is the generations that were committed
since the lab was last destroyed, each once, in the order they came. So what a commit
has recorded is known from then on. What a recovery has recorded need not be, since
its transaction took down whatever was there.

## Main definitions

* `RootedIn`: The lineage agrees with the history of commits.
* `LineageClosed`, `RestoresKnown`: What is wanted of it in every run.

## Theorems

* `rooted_run`: The lineage after a run is what was committed in it.
* `ancestors_run`: What is in the lineage stays there.
* `expected_accepted`: What a commit expects to find passes the check.
* `generation_lineage_closed`: What holds of the lineage in every run.
-/

namespace Twinet

namespace Agent

open List Records Option

/-! ### Lists without repeats -/

section EraseDups

variable {α : Type} [DecidableEq α]

theorem eraseDups_concat (l : List α) (a : α) :
    (l ++ [a]).eraseDups = if a ∈ l then l.eraseDups else l.eraseDups ++ [a] := by
  rw [eraseDups_append]
  by_cases ha : a ∈ l
  · simp [removeAll, ha]
  · simp [removeAll, eraseDups_cons, ha]

theorem nodup_eraseDups (l : List α) : l.eraseDups.Nodup := by
  induction l using reverseRecOn with
  | nil => exact nodup_nil
  | append_singleton l a ih =>
    rw [eraseDups_concat]
    by_cases ha : a ∈ l
    · rwa [if_pos ha]
    · rw [if_neg ha]
      exact nodup_append.mpr ⟨ih, nodup_singleton a, fun b hb c hc heq =>
        ha (List.mem_singleton.mp hc ▸ heq ▸ mem_eraseDups.mp hb)⟩

theorem eraseDups_of_nodup {l : List α} (h : l.Nodup) : l.eraseDups = l := by
  induction l using reverseRecOn with
  | nil => rfl
  | append_singleton l a ih =>
    obtain ⟨hl, -, hnot⟩ := nodup_append.mp h
    rw [eraseDups_concat, if_neg fun ha => hnot a ha a (mem_singleton_self a) rfl, ih hl]

end EraseDups

variable {current : String}

theorem appendGenerationLineage_eq {existing : List String} {previous : String}
    (hdistinct : existing.Nodup) (hnamed : "" ∉ existing)
    (hprevious : previous = "" ∨ previous ∈ existing) (hcurrent : current ≠ "") :
    appendGenerationLineage existing previous current =
      if current ∈ existing then existing else existing ++ [current] := by
  have hkept : existing.filter (· ≠ "") = existing :=
    filter_eq_self.mpr fun g hg => decide_eq_true fun h => hnamed (h ▸ hg)
  unfold appendGenerationLineage
  rw [filter_append, hkept]
  rcases eq_or_ne previous "" with hempty | hprev
  · have htail : [previous, current].filter (· ≠ "") = [current] := by simp [hempty, hcurrent]
    rw [htail, eraseDups_concat, eraseDups_of_nodup hdistinct]
  · have hmem := hprevious.resolve_left hprev
    have htail : [previous, current].filter (· ≠ "") = [previous, current] := by
      simp [hprev, hcurrent]
    have hsplit : existing ++ [previous, current] = (existing ++ [previous]) ++ [current] := by
      rw [append_assoc]
      rfl
    have hsame : current ∈ existing ++ [previous] ↔ current ∈ existing := by
      rw [List.mem_append, List.mem_singleton]
      exact ⟨fun h => h.elim id fun h => h ▸ hmem, .inl⟩
    rw [htail, hsplit, eraseDups_concat, eraseDups_concat, if_pos hmem,
      eraseDups_of_nodup hdistinct, if_congr hsame rfl rfl]

/-! ### What holds in every run -/

/-- The lineage is what the history says was committed, and everything the lab can come
    back to is in it. -/
structure RootedIn (history : List Moment) (v : Lineage) : Prop where
  ancestors : v.ancestors = (committedGenerations history).eraseDups
  named : "" ∉ v.ancestors
  committed : v.committed = "" ∨ v.committed ∈ v.ancestors
  origin : ∀ o, v.origin = some o →
    o.generation ≠ "" ∧ (o.previousGen = "" ∨ o.previousGen ∈ v.ancestors)
  overlays : ∀ vni generation, v.overlays.lookup vni = some generation →
    generation = "" ∨ generation ∈ v.ancestors

theorem committedGenerations_append_plain (history : List Moment) {moments : List Moment}
    (hplain : Plain moments) :
    committedGenerations (history ++ moments) = committedGenerations history := by
  rw [committedGenerations, foldl_append, ← committedGenerations]
  exact foldlRecOn (motive := (· = committedGenerations history)) moments _ rfl
    fun committed h m hm => (hplain m hm committed).trans h

theorem committedGenerations_concat (history : List Moment) (m : Moment) :
    committedGenerations (history ++ [m]) = m.extend (committedGenerations history) := by
  rw [committedGenerations, foldl_append, ← committedGenerations]
  rfl

variable {inventory : Inventory}

section Rooted

variable {lab : String} {d : GenerationNode} {a : GenerationAction} {v v' : Lineage}
  {history moments : List Moment}

namespace RootedIn

section

variable (h : RootedIn history v)

include h

theorem allows_iff {generation : String} (hcurrent : current = "" ∨ current ∈ v.ancestors) :
    (generation = "" ∨ v.Allows current generation) ↔
      generation = "" ∨ generation ∈ v.ancestors := by
  refine ⟨?_, fun hg => hg.imp_right fun hmem => .inr (.inr hmem)⟩
  rintro (hempty | rfl | rfl | hmem)
  · exact .inl hempty
  · exact hcurrent
  · exact h.committed
  · exact .inr hmem

theorem accepts_iff (hcurrent : current = "" ∨ current ∈ v.ancestors) :
    v.Accepts current inventory ↔ v.Knows inventory.containers := by
  unfold Lineage.Accepts Lineage.Knows
  have hoverlays : ∀ vni ∈ inventory.vnis, ∀ generation,
      v.overlays.lookup vni = some generation → generation = "" ∨ v.Allows current generation :=
    fun vni _ generation hlook => (h.allows_iff hcurrent).mpr (h.overlays vni generation hlook)
  rw [and_iff_left hoverlays]
  exact forall₂_congr fun container _ => h.allows_iff hcurrent

theorem append_eq (hcurrent : current ≠ "") :
    appendGenerationLineage v.ancestors v.committed current =
      if current ∈ v.ancestors then v.ancestors else v.ancestors ++ [current] := by
  refine appendGenerationLineage_eq ?_ h.named h.committed hcurrent
  rw [h.ancestors]
  exact nodup_eraseDups _

theorem mem_append (hcurrent : current ≠ "") (generation : String) :
    generation ∈ appendGenerationLineage v.ancestors v.committed current ↔
      generation ∈ v.ancestors ∨ generation = current := by
  rw [h.append_eq hcurrent]
  by_cases hmem : current ∈ v.ancestors
  · rw [if_pos hmem]
    exact ⟨.inl, fun hg => hg.elim id fun heq => heq ▸ hmem⟩
  · rw [if_neg hmem, List.mem_append, List.mem_singleton]

theorem plain (hplain : Plain moments) : RootedIn (history ++ moments) v :=
  { h with ancestors := committedGenerations_append_plain history hplain ▸ h.ancestors }

theorem turn (hturn : LineageTurn lab d a v v' moments) : RootedIn (history ++ moments) v' := by
  cases hturn with
  | stay origin _ hkept hplain =>
    refine { h.plain hplain with origin := fun o ho => ?_ }
    rcases hkept with hnone | hsame
    · rw [hnone] at ho
      cases ho
    · exact h.origin o (hsame ▸ ho)
  | prepared o _ hnamed hprevious hplain =>
    refine { h.plain hplain with origin := fun o' ho => ?_ }
    cases ho
    exact ⟨hnamed, hprevious ▸ h.committed⟩
  | committed o overlays m horigin _ hoverlays hm =>
    -- only a commit adds to the lineage, and it adds one generation
    obtain ⟨hnamed, hprevious⟩ := h.origin o horigin
    have hmem := h.mem_append hnamed
    refine ⟨?_, ?_, .inr ?_, fun o' ho => ?_, fun vni generation hlook => ?_⟩
    · rw [committedGenerations_concat, hm, eraseDups_concat, ← h.ancestors]
      refine (h.append_eq hnamed).trans (if_congr ?_ rfl rfl)
      rw [h.ancestors, mem_eraseDups]
    · rw [hmem]
      exact not_or.mpr ⟨h.named, hnamed.symm⟩
    · exact (hmem _).mpr (.inr rfl)
    · cases ho
      exact ⟨hnamed, hprevious.imp_right fun hp => (hmem _).mpr (.inl hp)⟩
    · rcases hoverlays vni generation hlook with rfl | hold
      · exact .inr ((hmem _).mpr (.inr rfl))
      · exact (h.overlays vni generation hold).imp_right fun hg => (hmem _).mpr (.inl hg)
  | returned o _ horigin hplain =>
    exact { h.plain hplain with committed := (h.origin o horigin).2 }
  | recovered o origin _ horigin hkept _ hplain =>
    refine { h.plain hplain with committed := (h.origin o horigin).2, origin := fun o' ho => ?_ }
    rcases hkept with hnone | hsame
    · rw [hnone] at ho
      cases ho
    · rw [hsame] at ho
      cases ho
      exact h.origin o horigin
  | destroyed =>
    refine ⟨?_, not_mem_nil, .inl rfl, fun o ho => ?_, fun vni generation hlook => ?_⟩
    · rw [committedGenerations_concat]
      rfl
    · cases ho
    · cases hlook

theorem ancestors_subset (hturn : LineageTurn lab d a v v' moments)
    (hkept : .destroyed ∉ moments) : ∀ generation ∈ v.ancestors, generation ∈ v'.ancestors := by
  cases hturn with
  | committed o overlays m horigin _ _ _ =>
    exact fun generation hg => (h.mem_append (h.origin o horigin).1 generation).mpr (.inl hg)
  | destroyed => exact absurd mem_cons_self hkept
  | _ => exact fun _ hg => hg

theorem knows_committed {o : Origin} (horigin : v.origin = some o)
    (haccepts : v.Accepts o.generation inventory) :
    ∀ container ∈ inventory.containers, container.generation = "" ∨ container.generation ∈
      appendGenerationLineage v.ancestors v.committed o.generation := by
  have hmem := h.mem_append (h.origin o horigin).1
  intro container hcontainer
  rcases haccepts.1 container hcontainer with hempty | heq | heq | hancestor
  · exact .inl hempty
  · exact .inr ((hmem _).mpr (.inr heq))
  · rw [heq]
    exact h.committed.imp_right fun hc => (hmem _).mpr (.inl hc)
  · exact .inr ((hmem _).mpr (.inl hancestor))

end

end RootedIn

/-- An action commits an inventory. -/
def Commits (lab : String) (d : GenerationNode) (a : GenerationAction) (inventory : Inventory) :
    Prop :=
  a.inventory = some inventory ∧ committedGenerations (lineageStep lab d a).2 ≠ []

theorem committedGenerations_plain (hplain : Plain moments) : committedGenerations moments = [] :=
  committedGenerations_append_plain [] hplain

theorem knows_of_commits (h : RootedIn history (d.records.lineage lab))
    (hcommits : Commits lab d a inventory) :
    ((lineageStep lab d a).1.records.lineage lab).Knows inventory.containers := by
  obtain ⟨hinventory, hwritten⟩ := hcommits
  have hturn := lineageTurn_of_step lab d a
  generalize (lineageStep lab d a).1.records.lineage lab = v' at hturn ⊢
  generalize (lineageStep lab d a).2 = moments at hturn hwritten
  cases hturn with
  | committed o overlays m horigin hcheck _ _ =>
    exact h.knows_committed horigin (hcheck inventory hinventory)
  | destroyed => exact absurd rfl hwritten
  | stay _ _ _ hplain | prepared _ _ _ _ hplain | returned _ _ _ hplain
  | recovered _ _ _ _ _ _ hplain => exact absurd (committedGenerations_plain hplain) hwritten

end Rooted

section Runs

variable (lab : String) (now : Time)

theorem rootedIn_blank : RootedIn [] ((GenerationNode.blank now).records.lineage lab) where
  ancestors := rfl
  named := not_mem_nil
  committed := .inl rfl
  origin _ h := by cases h
  overlays _ _ h := by cases h

/-- In every run the lineage is what was committed in it. -/
theorem rooted_run (as : List GenerationAction) :
    RootedIn ((lineages lab).trace (.blank now) as)
      (((lineages lab).run (.blank now) as).records.lineage lab) :=
  (lineages lab).history_induction (fun history d => RootedIn history (d.records.lineage lab))
    (fun _ d a h => h.turn (lineageTurn_of_step lab d a)) [] _ as (rootedIn_blank lab now)

variable {lab} in
/-- Short of a destroy, what is in the lineage stays there. -/
theorem ancestors_run {history : List Moment} {d : GenerationNode}
    (h : RootedIn history (d.records.lineage lab)) (as : List GenerationAction)
    (hkept : .destroyed ∉ (lineages lab).trace d as) :
    ∀ generation ∈ (d.records.lineage lab).ancestors,
      generation ∈ (((lineages lab).run d as).records.lineage lab).ancestors := by
  have hrun := (lineages lab).history_induction
    (fun later d' => RootedIn (history ++ later) (d'.records.lineage lab) ∧
      (.destroyed ∉ later → ∀ generation ∈ (d.records.lineage lab).ancestors,
        generation ∈ (d'.records.lineage lab).ancestors))
    (fun later d' a ⟨hrooted, hsub⟩ => by
      have hturn := lineageTurn_of_step lab d' a
      refine ⟨?_, fun hnot generation hg => ?_⟩
      · rw [← append_assoc]
        exact hrooted.turn hturn
      · rw [List.mem_append, not_or] at hnot
        exact hrooted.ancestors_subset hturn hnot.2 generation (hsub hnot.1 generation hg))
    [] d as ⟨by rwa [append_nil], fun _ _ hg => hg⟩
  exact hrun.2 hkept

end Runs

/-! ### What a commit expects -/

variable {containers : List TransactionContainer}

theorem mem_of_lookup_byDevice {deviceID : String} {container : TransactionContainer}
    (h : (byDevice containers).lookup deviceID = some container) : container ∈ containers := by
  refine foldlRecOn (motive := fun table : Table String TransactionContainer =>
    ∀ c, table.lookup deviceID = some c → c ∈ containers) containers _ (fun c hc => by cases hc)
    (fun table htable next hnext c hc => ?_) container h
  rcases Table.lookup_insert_eq_some.mp hc with ⟨-, rfl⟩ | ⟨-, hc⟩
  · exact hnext
  · exact htable c hc

variable {tx : JournaledTransaction} {touched : List String}
  {observed : List TransactionContainer} {devices : List ExpectedDevice}

theorem expectedObjectGeneration_ok
    {deviceID name spec generation : String} {prestate observed : Table String TransactionContainer}
    (h : expectedObjectGeneration tx touched deviceID name spec prestate observed =
      .ok generation) :
    generation = tx.generation ∨
      (∃ before, prestate.lookup deviceID = some before ∧ before.generation = generation) ∨
      ∃ prior, observed.lookup deviceID = some prior ∧ prior.generation = generation := by
  revert h
  fun_cases expectedObjectGeneration tx touched deviceID name spec prestate observed with
  | case1 | case7 =>
    rintro ⟨⟩
    exact .inl rfl
  | case2 | case3 => nofun
  | case4 _ _ before hbefore =>
    rintro ⟨⟩
    exact .inr (.inl ⟨before, hbefore, rfl⟩)
  | case5 _ _ prior hprior =>
    rintro ⟨⟩
    exact .inr (.inr ⟨prior, (filter_eq_some_iff.mp hprior).1, rfl⟩)
  | case6 _ _ _ before hbefore =>
    rintro ⟨⟩
    exact .inr (.inl ⟨before, (filter_eq_some_iff.mp hbefore).1, rfl⟩)

theorem generation_of_expectedContainers
    (h : expectedContainers tx touched observed devices = .ok containers) :
    ∀ container ∈ containers, container.generation = tx.generation ∨
      ∃ seen, (seen ∈ tx.prestate.containers ∨ seen ∈ observed) ∧
        seen.generation = container.generation := by
  intro container hcontainer
  obtain ⟨device, -, hdevice⟩ := ((Fallible.mem_mapM h).2 container).mp hcontainer
  revert hdevice
  unfold expectedContainer
  cases hgeneration : expectedObjectGeneration tx touched device.id device.container device.spec
      (byDevice tx.prestate.containers) (byDevice observed) with
  | error err => nofun
  | ok generation =>
    rintro ⟨⟩
    rcases expectedObjectGeneration_ok hgeneration with
      heq | ⟨before, hbefore, heq⟩ | ⟨prior, hprior, heq⟩
    · exact .inl heq
    · exact .inr ⟨before, .inl (mem_of_lookup_byDevice hbefore), heq⟩
    · exact .inr ⟨prior, .inr (mem_of_lookup_byDevice hprior), heq⟩

/-- After any run, what a commit expects passes the check, if what was there before carries
    generations that the run has committed since the lab was last destroyed, and what is
    there now carries those or was made by the transaction. -/
theorem expected_accepted (lab : String) (now : Time) (as : List GenerationAction)
    (hexpected : expectedContainers tx touched observed devices = .ok inventory.containers)
    (hprestate : ∀ container ∈ tx.prestate.containers, container.generation = "" ∨
      container.generation ∈ committedGenerations ((lineages lab).trace (.blank now) as))
    (hobserved : ∀ container ∈ observed, container.generation = "" ∨
      container.generation = tx.generation ∨
      container.generation ∈ committedGenerations ((lineages lab).trace (.blank now) as)) :
    ((lineages lab).run (.blank now) as).records.validateInventoryLineage lab inventory
      tx.generation = none := by
  have hrooted := rooted_run lab now as
  -- the lineage that the check reads is what the history says was committed
  have hknown : ∀ generation, generation ∈ committedGenerations
      ((lineages lab).trace (.blank now) as) → generation ∈
        (((lineages lab).run (.blank now) as).records.lineage lab).ancestors := by
    intro generation hg
    rw [hrooted.ancestors]
    exact mem_eraseDups.mpr hg
  refine (validateInventoryLineage_eq_none_iff _ lab inventory _).mpr
    ⟨fun container hcontainer => ?_, fun vni _ generation hlook =>
      (hrooted.overlays vni generation hlook).imp_right fun hg => .inr (.inr hg)⟩
  rcases generation_of_expectedContainers hexpected container hcontainer with
    heq | ⟨seen, hseen | hseen, heq⟩
  · exact .inr (.inl heq)
  · rw [← heq]
    exact (hprestate seen hseen).imp_right fun hg => .inr (.inr (hknown _ hg))
  · rw [← heq]
    exact (hobserved seen hseen).imp_right fun hg => hg.imp_right fun hg => .inr (hknown _ hg)

/-- Two routers are committed, and a generation that makes one of them again is applied. -/
def secondRound : List GenerationAction :=
  [.leases ((∅ : Table String ClusterLease).insert "lab" ⟨"deploy", sampleFence, 90 * second⟩) 0,
    .prepare sampleFence { sampleRequest with expected := "", prestate := ⟨"", [], [], true⟩ } true,
    .applyStart sampleFence "g2" true, .applyFinish sampleFence "g2" true,
    .commitBegin sampleFence "g2",
    .commitEnd sampleFence "g2"
      (some ⟨"g2", [⟨"c1", "r1", "s", "g2"⟩, ⟨"c2", "r2", "s", "g2"⟩], [], true⟩) true,
    .finalize sampleFence "g2" true,
    .prepare sampleFence
      { sampleRequest with
        expected := "g2"
        generation := "g3"
        prestate := ⟨"g2", [⟨"c1", "r1", "s", "g2"⟩, ⟨"c2", "r2", "s", "g2"⟩], [], true⟩ } true,
    .applyStart sampleFence "g3" true, .applyFinish sampleFence "g3" true]

/-- The transaction that is open after the second round. -/
def secondTransaction : JournaledTransaction :=
  (((lineages "lab").run (.blank 0) secondRound).records.transactions.lookup "lab").getD
    sampleApplied

/-- The commit of the second round expects the router that was made again with the new
    generation and the other with the old one, and the check takes both. -/
theorem expected_accepted_second :
    expectedContainers secondTransaction ["r1"] [⟨"c1", "r1", "s", "g3"⟩, ⟨"c2", "r2", "s", "g2"⟩]
        [⟨"r1", "c1", "s"⟩, ⟨"r2", "c2", "s"⟩] =
      .ok [⟨"c1", "r1", "s", "g3"⟩, ⟨"c2", "r2", "s", "g2"⟩] ∧
    ((lineages "lab").run (.blank 0) secondRound).records.validateInventoryLineage "lab"
      ⟨"g3", [⟨"c1", "r1", "s", "g3"⟩, ⟨"c2", "r2", "s", "g2"⟩], [], true⟩ "g3" = none := by
  have hexpected : expectedContainers secondTransaction ["r1"]
      [⟨"c1", "r1", "s", "g3"⟩, ⟨"c2", "r2", "s", "g2"⟩] [⟨"r1", "c1", "s"⟩, ⟨"r2", "c2", "s"⟩] =
        .ok [⟨"c1", "r1", "s", "g3"⟩, ⟨"c2", "r2", "s", "g2"⟩] := by decide +kernel
  have hgeneration : secondTransaction.generation = "g3" := by decide +kernel
  refine ⟨hexpected, ?_⟩
  rw [← hgeneration]
  exact expected_accepted "lab" 0 secondRound hexpected (by decide +kernel) (by decide +kernel)

/-! ### The recorded inventory -/

/-- The recorded inventory would pass the check again. -/
def LineageClosed (lab : String) (d : GenerationNode) : Prop :=
  ∀ inventory, d.records.inventories.lookup lab = some inventory →
    d.records.validateInventoryLineage lab inventory (d.records.generation lab).committed = none

/-- A recovery that ends puts back containers of the lab's own generations. -/
def RestoresKnown (lab : String) (d : GenerationNode) (a : GenerationAction) : Prop :=
  ∀ inventory, Restores lab d a inventory → (d.records.lineage lab).Knows inventory.containers

section Recorded

variable {lab : String} {d : GenerationNode} {a : GenerationAction} {history : List Moment}

theorem lineageClosed_iff (h : RootedIn history (d.records.lineage lab)) :
    LineageClosed lab d ↔ ∀ inventory, (d.records.lineage lab).inventory = some inventory →
      (d.records.lineage lab).Knows inventory.containers := by
  refine forall₂_congr fun inventory _ => ?_
  rw [validateInventoryLineage_eq_none_iff]
  exact h.accepts_iff h.committed

theorem lineage_restored (h : Restores lab d a inventory) :
    ((lineageStep lab d a).1.records.lineage lab).inventory = some inventory ∧
      ((lineageStep lab d a).1.records.lineage lab).ancestors =
        (d.records.lineage lab).ancestors := by
  obtain ⟨fence, ok, tx, rfl, hfence, htx, rfl⟩ := h
  have hrecords : (lineageStep lab d (.finishRecovered fence tx.generation ok)).1.records =
      (d.records.finishRecoveredGeneration d.now lab fence tx.generation ok).1 := rfl
  rw [hrecords]
  unfold finishRecoveredGeneration
  cases ok with
  | true | false => simp [hfence, htx, lineage, generation]

theorem known_step (h : RootedIn history (d.records.lineage lab))
    (hknown : ∀ inventory, (d.records.lineage lab).inventory = some inventory →
      (d.records.lineage lab).Knows inventory.containers)
    (hrestores : RestoresKnown lab d a) :
    ∀ inventory, ((lineageStep lab d a).1.records.lineage lab).inventory = some inventory →
      ((lineageStep lab d a).1.records.lineage lab).Knows inventory.containers := by
  have hturn := lineageTurn_of_step lab d a
  generalize (lineageStep lab d a).1.records.lineage lab = v' at hturn ⊢
  generalize (lineageStep lab d a).2 = moments at hturn
  cases hturn with
  | committed o overlays m horigin hcheck _ _ =>
    intro inventory hinventory
    cases hgiven : a.inventory with
    | some given =>
      rw [hgiven, some_or, some.injEq] at hinventory
      subst hinventory
      exact h.knows_committed horigin (hcheck given hgiven)
    | none =>
      -- the inventory stays, and what it names stays known
      rw [hgiven, none_or] at hinventory
      intro container hcontainer
      exact (hknown inventory hinventory container hcontainer).imp_right fun hg =>
        (h.mem_append (h.origin o horigin).1 _).mpr (.inl hg)
  | recovered o origin _ horigin _ hput _ =>
    intro inventory hinventory
    cases hinventory
    exact hrestores _ hput
  | destroyed => exact nofun
  | stay | prepared | returned => exact hknown

end Recorded

/-- In every run, the lineage of a lab is the generations that were committed since it
    was last destroyed, each once, in the order they came first. Every inventory
    committed since then passes the check at the end. The recorded inventory passes it at every
    point exactly if each recovery that ends puts back containers of the lab's own
    generations. The check accepts an inventory exactly if it names no other generation. -/
theorem generation_lineage_closed (lab : String) (now : Time) (as : List GenerationAction) :
    (((lineages lab).run (.blank now) as).records.generation lab).ancestors =
        (committedGenerations ((lineages lab).trace (.blank now) as)).eraseDups ∧
    (((lineages lab).run (.blank now) as).records.generation lab).ancestors.Nodup ∧
    (∀ xs a ys inventory, as = xs ++ a :: ys →
      Commits lab ((lineages lab).run (.blank now) xs) a inventory →
      .destroyed ∉ (lineages lab).trace ((lineages lab).run (.blank now) (xs ++ [a])) ys →
      ((lineages lab).run (.blank now) as).records.validateInventoryLineage lab inventory
        (((lineages lab).run (.blank now) as).records.generation lab).committed = none) ∧
    ((∀ xs ys, as = xs ++ ys → LineageClosed lab ((lineages lab).run (.blank now) xs)) ↔
      (lineages lab).Along (RestoresKnown lab) (.blank now) as) ∧
    ∀ inventory current,
      ((lineages lab).run (.blank now) as).records.validateInventoryLineage lab inventory
          current = none ↔
        (((lineages lab).run (.blank now) as).records.lineage lab).Accepts current inventory := by
  have hrooted := rooted_run lab now as
  refine ⟨hrooted.ancestors, ?_, ?_, ?_, ?_⟩
  · show (((lineages lab).run (.blank now) as).records.lineage lab).ancestors.Nodup
    rw [hrooted.ancestors]
    exact nodup_eraseDups _
  · intro xs a ys inventory hsplit hcommits hkept
    -- what the commit recorded was known then and stays known
    have hthen := rooted_run lab now (xs ++ [a])
    have hafter : (lineages lab).run (.blank now) (xs ++ [a]) =
        (lineageStep lab ((lineages lab).run (.blank now) xs) a).1 := by
      rw [Machine.run_append]
      rfl
    have hend : (lineages lab).run (.blank now) as =
        (lineages lab).run ((lineages lab).run (.blank now) (xs ++ [a])) ys := by
      rw [← Machine.run_append, hsplit, append_assoc]
      rfl
    rw [validateInventoryLineage_eq_none_iff]
    refine (hrooted.accepts_iff hrooted.committed).mpr fun container hcontainer => ?_
    have hknown := knows_of_commits (rooted_run lab now xs) hcommits container hcontainer
    rw [← hafter] at hknown
    rw [hend]
    exact hknown.imp_right (ancestors_run hthen ys hkept _)
  · refine (lineages lab).always_iff_along
      (fun d => (∃ history, RootedIn history (d.records.lineage lab)) ∧
        ∀ inventory, (d.records.lineage lab).inventory = some inventory →
          (d.records.lineage lab).Knows inventory.containers)
      (LineageClosed lab) ?_ ?_ ?_ ⟨⟨[], rootedIn_blank lab now⟩, nofun⟩
    · rintro d ⟨⟨history, h⟩, hknown⟩
      exact (lineageClosed_iff h).mpr hknown
    · rintro d a ⟨⟨history, h⟩, hknown⟩ hrestores
      exact ⟨⟨_, h.turn (lineageTurn_of_step lab d a)⟩, known_step h hknown hrestores⟩
    · -- a recovery that leaves the lineage closed put back what is known
      rintro d a ⟨⟨history, h⟩, -⟩ hclosed inventory hput
      obtain ⟨hinventory, hancestors⟩ := lineage_restored hput
      have hnext := h.turn (lineageTurn_of_step lab d a)
      intro container hcontainer
      rw [← hancestors]
      exact (lineageClosed_iff hnext).mp hclosed inventory hinventory container hcontainer
  · exact fun inventory current =>
      validateInventoryLineage_eq_none_iff _ lab inventory current

/-! ### A recovery of what was there -/

/-- A lab is prepared on a node that has a container of a generation its records do not
    know, as when they were lost, and the preparation is taken back. -/
def strayRecovery : List GenerationAction :=
  [.leases ((∅ : Table String ClusterLease).insert "lab"
      ⟨"deploy", sampleFence, 90 * second⟩) 0,
    .prepare sampleFence { sampleRequest with expected := "" } true,
    .beginRecovery sampleFence "g2" "rollback" (30 * second) (600 * second)
      ⟨false, false⟩ true,
    .finishRecovered sampleFence "g2" true]

/-- The recovered inventory has a container of a generation outside the lineage. -/
theorem stray_prestate_recorded :
    ¬ LineageClosed "lab" ((lineages "lab").run (.blank 0) strayRecovery) := by
  intro hclosed
  have hcheck := hclosed sampleRequest.prestate (by decide +kernel)
  exact absurd hcheck (by decide +kernel)

end Agent

end Twinet
