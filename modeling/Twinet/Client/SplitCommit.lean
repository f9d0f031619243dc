import Twinet.Agent.Generation
import Twinet.Client.Apply

/-!
# Resolving a Split Commit

A cluster that committed on some nodes only is brought back to one generation by
a decision taken from the reports of all nodes. The nodes that hold a commit
which was not finalized give it up where the others agree on the generation the
commit came from.

The decision is read off the reports, and a report of a node says which phase its
transaction is in, not whether it is committed. A commit that could not be saved
leaves a transaction in the phase of a committed one.

## Main definitions

* `RecoveryReport.detectSplitCommit`: The loop over the reports.
* `Splits`: What a split says about them.
* `resolveSplitCommit`: The cluster after the nodes gave up their commit.
* `Told`: A report tells the committed generation of its node.

## Theorems

* `RecoveryReport.splits_of_detect`: What a split that is reported says.
* `RecoveryReport.isSome_detectSplitCommit`: The loop finds the splits of the
  cluster.
* `recoverRollback_committed`: Where a recovery leaves the node.
* `split_commit_resolved_iff`: When the cluster ends up at one generation.
-/

namespace Twinet

namespace Client

open Agent List Records Option AList

/-! ### The decision -/

/-- The generation a cluster is to be brought to, and the nodes that have to give
    up a commit for it. -/
structure SplitCommit where
  target : String
  rollback : List String
deriving DecidableEq, Repr

/-- What the loop over a report has gathered. The generations are sets. -/
structure Tally where
  pending : List String
  previous : List String
  settled : List String
  settledList : List String

/-- One node of the report. The loop ends at a node that is still moving. -/
def Tally.visit (t : Tally) (node : String) (status : RecoveryStatus) : Option Tally :=
  if status.committedPending then
    some { t with
      pending := t.pending ++ [node], previous := t.previous.insert status.previousGeneration }
  else if unsettled status then none
  else some { t with
    settled := t.settled.insert status.generation, settledList := t.settledList ++ [node] }

/-- What every node of a cluster reported. -/
structure RecoveryReport where
  nodes : Table String RecoveryStatus

namespace RecoveryReport

def tally (report : RecoveryReport) : Option Tally :=
  report.nodes.entries.foldlM (fun t e => t.visit e.1 e.2)
    { pending := [], previous := [], settled := [], settledList := [] }

def detectSplitCommit (report : RecoveryReport) : Option SplitCommit :=
  if report.nodes.entries.length < 2 then none
  else match report.tally with
    | none => none
    | some t =>
      if t.pending = [] ∨ t.settledList = [] then none
      else match t.settled, t.previous with
        | [target], [_] =>
          if target = "" then none
          else if target ∉ t.previous then none
          else some { target := target, rollback := t.pending.insertionSort (· ≤ ·) }
        | _, _ => none

/-- What the loop has gathered from the part of the report it has seen. -/
structure Gathered (seen : List (Σ _ : String, RecoveryStatus)) (t : Tally) : Prop where
  halts : ∀ e ∈ seen, e.2.committedPending = false → unsettled e.2 = false
  pending : ∀ name, name ∈ t.pending ↔ ∃ e ∈ seen, e.2.committedPending = true ∧ e.1 = name
  previous : ∀ g, g ∈ t.previous ↔
    ∃ e ∈ seen, e.2.committedPending = true ∧ e.2.previousGeneration = g
  settled : ∀ g, g ∈ t.settled ↔
    ∃ e ∈ seen, e.2.committedPending = false ∧ e.2.generation = g
  settledList : ∀ name, name ∈ t.settledList ↔
    ∃ e ∈ seen, e.2.committedPending = false ∧ e.1 = name
  sets : t.previous.Nodup ∧ t.settled.Nodup

theorem exists_mem_concat {α : Type} {seen : List α} {a : α} {p : α → Prop} :
    (∃ e ∈ seen ++ [a], p e) ↔ (∃ e ∈ seen, p e) ∨ p a := by
  simp [or_and_right, exists_or]

theorem Gathered.visit {seen : List (Σ _ : String, RecoveryStatus)} {t t' : Tally}
    {e : Σ _ : String, RecoveryStatus} (h : Gathered seen t)
    (hvisit : t.visit e.1 e.2 = some t') : Gathered (seen ++ [e]) t' := by
  revert hvisit
  fun_cases Tally.visit t e.1 e.2 with
  | case1 hpending =>
    -- a node with a pending commit
    rintro ⟨⟩
    refine ⟨fun e' he' hnot => ?_, fun name => ?_, fun g => ?_, fun g => ?_, fun name => ?_,
      h.sets.1.insert, h.sets.2⟩
    · rcases mem_append.mp he' with he' | he'
      · exact h.halts e' he' hnot
      · rw [mem_singleton.mp he', hpending] at hnot
        cases hnot
    all_goals rw [exists_mem_concat]
    · rw [← h.pending]
      simp [hpending, eq_comm]
    · rw [← h.previous]
      simp [hpending, or_comm, eq_comm]
    · rw [← h.settled]
      simp [hpending]
    · rw [← h.settledList]
      simp [hpending]
  | case2 => nofun
  | case3 hpending hsettled =>
    -- a settled node
    rintro ⟨⟩
    refine ⟨fun e' he' hnot => ?_, fun name => ?_, fun g => ?_, fun g => ?_, fun name => ?_,
      h.sets.1, h.sets.2.insert⟩
    · rcases mem_append.mp he' with he' | he'
      · exact h.halts e' he' hnot
      · rw [mem_singleton.mp he']
        exact Bool.not_eq_true _ ▸ hsettled
    all_goals rw [exists_mem_concat]
    · rw [← h.pending]
      simp [hpending]
    · rw [← h.previous]
      simp [hpending]
    · rw [← h.settled]
      simp [hpending, or_comm, eq_comm]
    · rw [← h.settledList]
      simp [hpending, eq_comm]

theorem gathered_of_foldlM {rest seen : List (Σ _ : String, RecoveryStatus)} {t₀ t : Tally}
    (h : Gathered seen t₀) (hloop : rest.foldlM (fun t e => t.visit e.1 e.2) t₀ = some t) :
    Gathered (seen ++ rest) t := by
  induction rest generalizing seen t₀ with
  | nil =>
    cases hloop
    rwa [append_nil]
  | cons e rest ih =>
    rw [foldlM_cons, bind_eq_bind, bind_eq_some_iff] at hloop
    obtain ⟨t₁, hvisit, hloop⟩ := hloop
    have hrest := ih (h.visit hvisit) hloop
    rwa [append_assoc, singleton_append] at hrest

theorem exists_foldlM {rest : List (Σ _ : String, RecoveryStatus)} (t₀ : Tally)
    (h : ∀ e ∈ rest, e.2.committedPending = false → unsettled e.2 = false) :
    ∃ t, rest.foldlM (fun t e => t.visit e.1 e.2) t₀ = some t := by
  induction rest generalizing t₀ with
  | nil => exact ⟨t₀, rfl⟩
  | cons e rest ih =>
    obtain ⟨he, hrest⟩ := forall_mem_cons.mp h
    obtain ⟨t₁, hvisit⟩ : ∃ t₁, t₀.visit e.1 e.2 = some t₁ := by
      cases hpending : e.2.committedPending with
      | true => exact ⟨_, by rw [Tally.visit, if_pos hpending]⟩
      | false => exact ⟨_, by rw [Tally.visit, hpending, he hpending]; rfl⟩
    obtain ⟨t, hloop⟩ := ih t₁ hrest
    exact ⟨t, by rw [foldlM_cons, bind_eq_bind, hvisit, bind_some, hloop]⟩

variable {report : RecoveryReport}

theorem tally_gathered {t : Tally} (h : report.tally = some t) :
    Gathered report.nodes.entries t := by
  have hempty : Gathered [] { pending := [], previous := [], settled := [], settledList := [] } :=
    ⟨by simp, by simp, by simp, by simp, by simp, by simp⟩
  simpa only [nil_append] using gathered_of_foldlM hempty h

/-- What a split says about a report: some nodes hold a commit, some do not, these
    are settled at the target, and the commits came from there. -/
structure Splits (report : RecoveryReport) (split : SplitCommit) : Prop where
  two : 2 ≤ report.nodes.entries.length
  target : split.target ≠ ""
  rollback : ∀ name, name ∈ split.rollback ↔
    ∃ status, report.nodes.lookup name = some status ∧ status.committedPending = true
  disputed : ∃ name status, report.nodes.lookup name = some status ∧
    status.committedPending = true
  undisputed : ∃ name status, report.nodes.lookup name = some status ∧
    status.committedPending = false
  settled : ∀ name status, report.nodes.lookup name = some status →
    status.committedPending = false → unsettled status = false ∧ status.generation = split.target
  previous : ∀ name status, report.nodes.lookup name = some status →
    status.committedPending = true → status.previousGeneration = split.target

variable {name : String}

theorem mem_entries {status : RecoveryStatus} :
    ⟨name, status⟩ ∈ report.nodes.entries ↔ report.nodes.lookup name = some status :=
  mem_lookup_iff.symm

variable {split : SplitCommit}

/-- A split the loop reports is one. -/
theorem splits_of_detect (h : report.detectSplitCommit = some split) : Splits report split := by
  revert h
  fun_cases RecoveryReport.detectSplitCommit report with
  | case6 htwo t htally hempty target previous hprevious hsettled htarget hmember =>
    -- only the last branch reports a split
    rintro ⟨⟩
    have hall := tally_gathered htally
    obtain ⟨hpending, hlist⟩ := not_or.mp hempty
    obtain rfl : target = previous := by simpa [hprevious] using hmember
    refine ⟨by omega, htarget, fun name => ?_, ?_, ?_, fun name status hlook hnot => ?_,
      fun name status hlook hpend => ?_⟩
    · rw [mem_insertionSort, hall.pending]
      constructor
      · rintro ⟨⟨n, status⟩, hmem, hpend, rfl⟩
        exact ⟨status, mem_entries.mp hmem, hpend⟩
      · rintro ⟨status, hlook, hpend⟩
        exact ⟨⟨name, status⟩, mem_entries.mpr hlook, hpend, rfl⟩
    · obtain ⟨name, hname⟩ := exists_mem_of_ne_nil _ hpending
      obtain ⟨⟨n, status⟩, hmem, hpend, -⟩ := (hall.pending name).mp hname
      exact ⟨n, status, mem_entries.mp hmem, hpend⟩
    · obtain ⟨name, hname⟩ := exists_mem_of_ne_nil _ hlist
      obtain ⟨⟨n, status⟩, hmem, hpend, -⟩ := (hall.settledList name).mp hname
      exact ⟨n, status, mem_entries.mp hmem, hpend⟩
    · have hmem := mem_entries.mpr hlook
      refine ⟨hall.halts _ hmem hnot, ?_⟩
      have hgen := (hall.settled status.generation).mpr ⟨_, hmem, hnot, rfl⟩
      rwa [hsettled, mem_singleton] at hgen
    · have hgen := (hall.previous status.previousGeneration).mpr
        ⟨_, mem_entries.mpr hlook, hpend, rfl⟩
      rwa [hprevious, mem_singleton] at hgen
  | _ => nofun

/-- What a node of the report said. -/
def status (report : RecoveryReport) (i : { name // name ∈ report.nodes.keys }) : RecoveryStatus :=
  (report.nodes.lookup i.1).get (lookup_isSome.mpr i.2)

theorem lookup_status (report : RecoveryReport) (i : { name // name ∈ report.nodes.keys }) :
    report.nodes.lookup i.1 = some (report.status i) :=
  (some_get _).symm

theorem exists_status {st : RecoveryStatus} (h : report.nodes.lookup name = some st) :
    ∃ i, report.status i = st :=
  have hmem := lookup_isSome.mp (isSome_of_eq_some h)
  ⟨⟨name, hmem⟩, some.inj ((report.lookup_status ⟨name, hmem⟩).symm.trans h)⟩

theorem eq_singleton_of_mem_iff {l : List String} {a : String} (hnodup : l.Nodup)
    (h : ∀ b, b ∈ l ↔ b = a) : l = [a] :=
  perm_singleton.mp <| (perm_ext_iff_of_nodup hnodup (nodup_singleton a)).mpr fun b =>
    (h b).trans mem_singleton.symm

/-- The loop agrees with the test on a whole cluster. -/
theorem isSome_detectSplitCommit (report : RecoveryReport) :
    report.detectSplitCommit.isSome = Client.detectSplitCommit report.status := by
  have hcard : Fintype.card { name // name ∈ report.nodes.keys } =
      report.nodes.entries.length := by
    rw [Fintype.card_of_subtype report.nodes.keys.toFinset (by simp),
      toFinset_card_of_nodup report.nodes.keys_nodup]
    exact length_map _
  rw [Bool.eq_iff_iff, Client.detectSplitCommit, decide_eq_true_eq, hcard]
  constructor
  · intro hsome
    obtain ⟨split, hsplit⟩ := isSome_iff_exists.mp hsome
    have h := splits_of_detect hsplit
    obtain ⟨name, st, hlook, hpend⟩ := h.disputed
    obtain ⟨name', st', hlook', hnot⟩ := h.undisputed
    obtain ⟨i, rfl⟩ := exists_status hlook
    obtain ⟨k, rfl⟩ := exists_status hlook'
    have htarget := (h.settled _ _ hlook' hnot).2
    refine ⟨h.two, fun j hj => (h.settled _ _ (report.lookup_status j) hj).1, ⟨i, hpend⟩, k, hnot,
      by rw [htarget]; exact h.target, fun j hj => ?_, fun j hj => ?_⟩
    · rw [htarget, (h.settled _ _ (report.lookup_status j) hj).2]
    · rw [htarget, h.previous _ _ (report.lookup_status j) hj]
  · rintro ⟨htwo, hsettled, ⟨i, hpend⟩, k, hnot, htarget, hsame, hprevious⟩
    have hentry : ∀ j, ⟨j.1, report.status j⟩ ∈ report.nodes.entries := fun j =>
      mem_entries.mpr (report.lookup_status j)
    have hstatus : ∀ e ∈ report.nodes.entries, ∃ j, report.status j = e.2 := fun e he =>
      exists_status (mem_entries.mp he)
    obtain ⟨t, htally⟩ : ∃ t, report.tally = some t := by
      refine exists_foldlM _ fun e he => ?_
      obtain ⟨j, hj⟩ := hstatus e he
      exact hj ▸ hsettled j
    have hall := tally_gathered htally
    have hlists : ¬ (t.pending = [] ∨ t.settledList = []) := not_or.mpr
      ⟨ne_nil_of_mem ((hall.pending _).mpr ⟨_, hentry i, hpend, rfl⟩),
        ne_nil_of_mem ((hall.settledList _).mpr ⟨_, hentry k, hnot, rfl⟩)⟩
    -- the two sets of generations are one generation each, and the same
    have hset : t.settled = [(report.status k).generation] := by
      refine eq_singleton_of_mem_iff hall.sets.2 fun g => (hall.settled g).trans ⟨?_, ?_⟩
      · rintro ⟨e, he, hend, rfl⟩
        obtain ⟨j, hj⟩ := hstatus e he
        exact hj ▸ hsame j (hj ▸ hend)
      · rintro rfl
        exact ⟨_, hentry k, hnot, rfl⟩
    have hprev : t.previous = [(report.status k).generation] := by
      refine eq_singleton_of_mem_iff hall.sets.1 fun g => (hall.previous g).trans ⟨?_, ?_⟩
      · rintro ⟨e, he, hend, rfl⟩
        obtain ⟨j, hj⟩ := hstatus e he
        exact hj ▸ hprevious j (hj ▸ hend)
      · rintro rfl
        exact ⟨_, hentry i, hpend, hprevious i hpend⟩
    simp [detectSplitCommit, not_lt.mpr htwo, htally, hlists, hset, hprev, htarget]

end RecoveryReport

/-! ### Giving up a commit -/

/-- What becomes of what a recovery by rollback does on its way, saves included. -/
structure RollbackOutcomes where
  /-- Without a transaction, the lab is as it is recorded. -/
  consistent : Bool
  reopened : Bool
  begun : Bool
  /-- The previous runtime is back and verified. -/
  restored : Bool
  finished : Bool

/-- A recovery by rollback that takes a committed transaction back as well. -/
def recoverRollback (r : Records) (now : Time) (lab : String) (req : RecoveryRequest)
    (o : RollbackOutcomes) : Records × Bool :=
  match fenceError r.server lab req.fence now, r.transactions.lookup lab with
  | some _, _ => (r, false)
  | none, none => (r, o.consistent)
  | none, some tx =>
    -- A transaction that is not committed is left as it is here.
    match r.reopenCommittedTransaction now lab req.fence tx.generation o.reopened with
    | (r, .error _) => (r, false)
    | (r, .ok tx) =>
      match r.beginRecovery now lab req.fence tx.generation "rollback" req.phaseLimit
        req.totalDeadline req.options o.begun with
      | (r, .error _) => (r, false)
      | (r, .ok tx) =>
        if (tx.prestate.containers ≠ [] ∧ tx.prestate.stateSafe = false) ∨
            o.restored = false then
          (r.failRecovery now lab req.fence tx.generation "rollback failed", false)
        else match r.finishRecoveredGeneration now lab req.fence tx.generation o.finished with
          | (r, some _) =>
            (r.failRecovery now lab req.fence tx.generation "rollback failed", false)
          | (r, none) => (r, true)

section Recover

variable {r r' : Records} {now : Time} {lab generation : String} {fence : Fence}
  {tx tx' : JournaledTransaction}

theorem reopened_previousGen {ok : Bool} (htx : r.transactions.lookup lab = some tx)
    (h : r.reopenCommittedTransaction now lab fence generation ok = (r', .ok tx')) :
    r'.transactions.lookup lab = some tx' ∧ tx'.previousGen = tx.previousGen := by
  unfold reopenCommittedTransaction at h
  rw [htx] at h
  cases hfence : fenceError r.server lab fence now with
  | some err => simp [hfence] at h
  | none =>
    simp only [hfence] at h
    split_ifs at h
    · cases h
    · cases h
      exact ⟨htx, rfl⟩
    · cases h
    · cases h
    · cases h
      exact ⟨lookup_insert _, rfl⟩
    · cases h

theorem begun_previousGen {strategy : String} {phaseLimit totalDeadline : Time}
    {options : RecoveryRunOptions} {ok : Bool} (htx : r.transactions.lookup lab = some tx)
    (h : r.beginRecovery now lab fence generation strategy phaseLimit totalDeadline options ok =
      (r', .ok tx')) :
    r'.transactions.lookup lab = some tx' ∧ tx'.previousGen = tx.previousGen := by
  revert h
  fun_cases beginRecovery r now lab fence generation strategy phaseLimit totalDeadline options
    ok with
  | case4 _ tx₀ htx₀ =>
    cases ok with
    | false => nofun
    | true =>
      intro h
      obtain ⟨rfl, hbegun⟩ := Prod.mk.inj h
      rw [← Except.ok.inj hbegun, some.inj (htx.symm.trans htx₀)]
      exact ⟨lookup_insert _, rfl⟩
  | _ => nofun

theorem finished_committed {ok : Bool} (htx : r.transactions.lookup lab = some tx)
    (h : r.finishRecoveredGeneration now lab fence generation ok = (r', none)) :
    (r'.generation lab).committed = tx.previousGen := by
  unfold finishRecoveredGeneration at h
  rw [htx] at h
  cases hfence : fenceError r.server lab fence now with
  | some err => simp [hfence] at h
  | none =>
    simp only [hfence] at h
    split_ifs at h
    · cases h
    · cases h
      simp [Records.generation]
    · cases h

/-- A recovery that succeeds leaves the node at the generation its transaction was
    prepared from. -/
theorem recoverRollback_committed {req : RecoveryRequest} {o : RollbackOutcomes}
    (htx : r.transactions.lookup lab = some tx)
    (h : (recoverRollback r now lab req o).2 = true) :
    ((recoverRollback r now lab req o).1.generation lab).committed = tx.previousGen := by
  revert h
  fun_cases recoverRollback r now lab req o with
  | case2 hnone => cases hnone.symm.trans htx
  | case7 tx₀ htx₀ _ r₁ tx₁ hreopen r₂ tx₂ hbegin _ r₃ hfinish =>
    rintro -
    obtain ⟨hlook₁, hprev₁⟩ := reopened_previousGen htx hreopen
    obtain ⟨hlook₂, hprev₂⟩ := begun_previousGen hlook₁ hbegin
    rw [finished_committed hlook₂ hfinish, hprev₂, hprev₁]
  | _ => nofun

end Recover

/-! ### The cluster -/

/-- A node, and whether the objects of the lab on it are the ones it expects. -/
structure ObservedNode where
  records : Records
  exact : Bool

def ObservedNode.status (lab : String) (v : ObservedNode) : RecoveryStatus :=
  inventoryStatus v.exact (v.records.labState lab)

/-- What the nodes of a cluster report. -/
def clusterReport (lab : String) (nodes : Table String ObservedNode) : RecoveryReport where
  nodes := nodes.filterMap fun _ v => some (v.status lab)

/-- What a node is asked, and what comes of it. -/
structure Recovery where
  now : Time
  request : RecoveryRequest
  outcomes : RollbackOutcomes

/-- Ask a node to give up its commit. -/
def Recovery.run (ask : Recovery) (lab : String) (v : ObservedNode) : Records × Bool :=
  recoverRollback v.records ask.now lab ask.request ask.outcomes

/-- A node after the nodes of a split were asked to give up their commit. -/
def resolvedNode (lab : String) (split : SplitCommit) (ask : String → Recovery) (name : String)
    (v : ObservedNode) : Records :=
  if name ∈ split.rollback then ((ask name).run lab v).1 else v.records

/-- Ask the nodes of a split to give up their commit. -/
def resolveSplitCommit (lab : String) (split : SplitCommit) (ask : String → Recovery)
    (nodes : Table String ObservedNode) : Table String Records × Bool :=
  (nodes.filterMap fun name v => some (resolvedNode lab split ask name v),
    split.rollback.all fun name => (nodes.lookup name).any fun v => ((ask name).run lab v).2)

/-- The report of a settled node tells its committed generation: the node has a
    generation on record and no transaction, or one for the generation it is at. -/
def Told (lab : String) (r : Records) : Prop :=
  match r.transactions.lookup lab with
  | none => (r.generation lab).committed ≠ ""
  | some tx => tx.generation = (r.generation lab).committed

instance (lab : String) (r : Records) : Decidable (Told lab r) := by
  unfold Told
  split <;> infer_instance

section Resolved

variable {lab : String} {v : ObservedNode}

theorem status_of_tx {tx : JournaledTransaction}
    (htx : v.records.transactions.lookup lab = some tx) :
    v.status lab =
      { phase := tx.phase.status, generation := tx.generation
        previousGeneration := tx.previousGen, committedPending := tx.committed
        consistent := v.exact && tx.phase == .committed } := by
  simp [ObservedNode.status, inventoryStatus, labState, htx]

theorem status_of_no_tx (htx : v.records.transactions.lookup lab = none) :
    (v.status lab).committedPending = false ∧
      ((v.status lab).phase = .committed ∧ (v.status lab).generation =
          (if (v.records.generation lab).committed = "" then
            ((v.records.inventories.lookup lab).map (·.generation)).getD ""
          else (v.records.generation lab).committed) ∨
        (v.status lab).phase = .idle ∧ (v.status lab).generation = "") := by
  simp only [ObservedNode.status, inventoryStatus, labState, htx, map_none]
  cases v.records.inventories.lookup lab with
  | none => exact ⟨rfl, .inr ⟨rfl, rfl⟩⟩
  | some inventory => exact ⟨rfl, .inl ⟨rfl, rfl⟩⟩

theorem status_pending (h : (v.status lab).committedPending = true) :
    ∃ tx, v.records.transactions.lookup lab = some tx ∧
      (v.status lab).previousGeneration = tx.previousGen := by
  cases htx : v.records.transactions.lookup lab with
  | some tx => exact ⟨tx, rfl, by rw [status_of_tx htx]⟩
  | none =>
    rw [(status_of_no_tx htx).1] at h
    cases h

theorem status_settled (hsettled : unsettled (v.status lab) = false)
    (hgen : (v.status lab).generation ≠ "") :
    (v.status lab).phase = .committed ∧ (v.status lab).consistent = true := by
  have hconsistent : (v.status lab).phase = .idle ∨ (v.status lab).consistent = true := by
    simp only [unsettled, Bool.or_eq_false_iff, Bool.and_eq_false_iff, bne_eq_false_iff_eq,
      Bool.not_eq_false'] at hsettled
    exact hsettled.2
  cases htx : v.records.transactions.lookup lab with
  | some tx =>
    have hstatus := status_of_tx htx
    rcases hconsistent with hidle | hconsistent
    · rw [hstatus] at hidle
      cases hphase : tx.phase <;> simp [TransactionPhase.status, hphase] at hidle
    · refine ⟨?_, hconsistent⟩
      rw [hstatus, Bool.and_eq_true, beq_iff_eq] at hconsistent
      rw [hstatus, hconsistent.2]
      rfl
  | none =>
    rcases (status_of_no_tx htx).2 with ⟨hphase, -⟩ | ⟨-, hnone⟩
    · refine ⟨hphase, hconsistent.resolve_left ?_⟩
      rw [hphase]
      decide
    · exact absurd hnone hgen

theorem status_told (hgen : (v.status lab).generation ≠ "") :
    (v.records.generation lab).committed = (v.status lab).generation ↔ Told lab v.records := by
  unfold Told
  cases htx : v.records.transactions.lookup lab with
  | some tx =>
    rw [status_of_tx htx]
    exact eq_comm
  | none =>
    rcases (status_of_no_tx htx).2 with ⟨-, hreport⟩ | ⟨-, hnone⟩
    · rw [hreport] at hgen ⊢
      by_cases hcommitted : (v.records.generation lab).committed = ""
      · rw [if_pos hcommitted] at hgen ⊢
        simp only [hcommitted, ne_eq, not_true_eq_false, iff_false]
        exact fun h => hgen h.symm
      · rw [if_neg hcommitted]
        exact iff_of_true rfl hcommitted
    · exact absurd hnone hgen

variable {split : SplitCommit} {ask : String → Recovery} {nodes : Table String ObservedNode}
  {name : String}

theorem resolvedNode_listed (h : name ∈ split.rollback) :
    resolvedNode lab split ask name v = ((ask name).run lab v).1 := if_pos h

theorem resolvedNode_unlisted (h : name ∉ split.rollback) :
    resolvedNode lab split ask name v = v.records := if_neg h

theorem lookup_resolved (h : nodes.lookup name = some v) :
    (resolveSplitCommit lab split ask nodes).1.lookup name =
      some (resolvedNode lab split ask name v) := by
  simp [resolveSplitCommit, h]

theorem exists_of_resolved {r : Records}
    (h : (resolveSplitCommit lab split ask nodes).1.lookup name = some r) :
    ∃ v, nodes.lookup name = some v ∧ resolvedNode lab split ask name v = r := by
  simpa [resolveSplitCommit, bind_eq_some_iff] using h

theorem recovered_of_resolved (h : (resolveSplitCommit lab split ask nodes).2 = true)
    (hv : nodes.lookup name = some v) (hmem : name ∈ split.rollback) :
    ((ask name).run lab v).2 = true := by
  have hname := all_eq_true.mp h name hmem
  rwa [hv, any_some] at hname

end Resolved

/-- Where a split is reported, every node that is not rolled back is settled at
    the target and every node that is came from there. After all of these have
    given up their commit, the cluster is at the target exactly if the reports of
    the other nodes told their committed generation. A cluster in which every node
    holds a commit is never split. -/
theorem split_commit_resolved_iff (lab : String) (nodes : Table String ObservedNode)
    (ask : String → Recovery) :
    (∀ split, (clusterReport lab nodes).detectSplitCommit = some split →
      (∀ name v, nodes.lookup name = some v →
        (name ∉ split.rollback → (v.status lab).phase = .committed ∧
          (v.status lab).consistent = true ∧ (v.status lab).committedPending = false ∧
          (v.status lab).generation = split.target) ∧
        (name ∈ split.rollback → (v.status lab).committedPending = true ∧
          (v.status lab).previousGeneration = split.target)) ∧
      ((resolveSplitCommit lab split ask nodes).2 = true →
        ((∀ name r, (resolveSplitCommit lab split ask nodes).1.lookup name = some r →
            (r.generation lab).committed = split.target) ↔
          ∀ name v, nodes.lookup name = some v → (v.status lab).committedPending = false →
            Told lab v.records))) ∧
    ((∀ name v, nodes.lookup name = some v → (v.status lab).committedPending = true) →
      (clusterReport lab nodes).detectSplitCommit = none) := by
  have hlookup : ∀ name status, (clusterReport lab nodes).nodes.lookup name = some status ↔
      ∃ v, nodes.lookup name = some v ∧ v.status lab = status := fun name status => by
    simp [clusterReport, bind_eq_some_iff]
  refine ⟨fun split hsplit => ?_, fun hall => ?_⟩
  · have h := RecoveryReport.splits_of_detect hsplit
    have hin : ∀ name v, nodes.lookup name = some v →
        (name ∈ split.rollback ↔ (v.status lab).committedPending = true) := by
      intro name v hv
      rw [h.rollback]
      constructor
      · rintro ⟨status, hstatus, hpend⟩
        obtain ⟨v', hv', rfl⟩ := (hlookup _ _).mp hstatus
        cases hv.symm.trans hv'
        exact hpend
      · exact fun hpend => ⟨_, (hlookup _ _).mpr ⟨v, hv, rfl⟩, hpend⟩
    have hout : ∀ name v, nodes.lookup name = some v → (v.status lab).committedPending = false →
        unsettled (v.status lab) = false ∧ (v.status lab).generation = split.target :=
      fun name v hv hnot => h.settled name _ ((hlookup _ _).mpr ⟨v, hv, rfl⟩) hnot
    have hprevious : ∀ name v, nodes.lookup name = some v →
        (v.status lab).committedPending = true →
        (v.status lab).previousGeneration = split.target :=
      fun name v hv hpend => h.previous name _ ((hlookup _ _).mpr ⟨v, hv, rfl⟩) hpend
    refine ⟨fun name v hv => ⟨fun hnot => ?_, fun hmem => ?_⟩, fun hdone => ?_⟩
    · have hpend := Bool.eq_false_iff.mpr (mt (hin name v hv).mpr hnot)
      obtain ⟨hsettled, htarget⟩ := hout name v hv hpend
      obtain ⟨hphase, hconsistent⟩ := status_settled hsettled (htarget ▸ h.target)
      exact ⟨hphase, hconsistent, hpend, htarget⟩
    · have hpend := (hin name v hv).mp hmem
      exact ⟨hpend, hprevious name v hv hpend⟩
    · -- the nodes of the split are back at the target; the others are where they were
      constructor
      · intro hafter name v hv hnot
        have hmem : name ∉ split.rollback := fun hmem => by simp [(hin name v hv).mp hmem] at hnot
        have htarget := (hout name v hv hnot).2
        have hgen := hafter name _ (lookup_resolved hv)
        rw [resolvedNode_unlisted hmem, ← htarget] at hgen
        exact (status_told (htarget ▸ h.target)).mp hgen
      · intro htold name r hr
        obtain ⟨v, hv, rfl⟩ := exists_of_resolved hr
        by_cases hmem : name ∈ split.rollback
        · have hpend := (hin name v hv).mp hmem
          obtain ⟨tx, htx, horigin⟩ := status_pending hpend
          rw [resolvedNode_listed hmem, ← hprevious name v hv hpend, horigin]
          exact recoverRollback_committed htx (recovered_of_resolved hdone hv hmem)
        · have hnot := Bool.eq_false_iff.mpr (mt (hin name v hv).mpr hmem)
          have htarget := (hout name v hv hnot).2
          rw [resolvedNode_unlisted hmem, ← htarget]
          exact (status_told (htarget ▸ h.target)).mpr (htold name v hv hnot)
  · rw [eq_none_iff_forall_ne_some]
    intro split hsplit
    obtain ⟨name, status, hstatus, hnot⟩ := (RecoveryReport.splits_of_detect hsplit).undisputed
    obtain ⟨v, hv, rfl⟩ := (hlookup _ _).mp hstatus
    rw [hall name v hv] at hnot
    cases hnot

/-- A node that committed `g3` from `g2` and has not finalized it. -/
def aheadNode : ObservedNode where
  records := { sampleRecords (some { sampleApplied with
      generation := "g3", expected := "g2", previousGen := "g2", committed := true
      phase := .committed }) with
    generations := (∅ : Table String GenerationState).insert "lab"
      { committed := "g3", prepared := "", ancestors := ["g1", "g2"] } }
  exact := true

/-- A node that is at `g2`. -/
def settledNode : ObservedNode where
  records := { sampleRecords none with
    generations := (∅ : Table String GenerationState).insert "lab"
      { committed := "g2", prepared := "", ancestors := ["g1"] } }
  exact := true

/-- A node that is at `g1` and could not save its commit of `g2`. -/
def unsavedNode : ObservedNode where
  records := (finishCommittedGeneration (sampleRecords (some sampleApplied))
    0 "lab" sampleFence "g2" none false).1
  exact := true

def splitCluster (other : ObservedNode) : Table String ObservedNode :=
  ((∅ : Table String ObservedNode).insert "node1" other).insert "node0" aheadNode

/-- A recovery in which everything works. -/
def sampleRecovery : Recovery where
  now := 0
  request :=
    { fence := sampleFence, phaseLimit := 60 * second, totalDeadline := 600 * second
      options := { takeover := false, forwardAcknowledged := false } }
  outcomes :=
    { consistent := true, reopened := true, begun := true, restored := true, finished := true }

/-- With a node at `g2` the cluster ends up there. -/
theorem split_cluster_converges :
    ∀ name r, (resolveSplitCommit "lab" { target := "g2", rollback := ["node0"] }
        (fun _ => sampleRecovery) (splitCluster settledNode)).1.lookup name = some r →
      (r.generation "lab").committed = "g2" := by
  have htold : ∀ e ∈ (splitCluster settledNode).entries,
      (e.2.status "lab").committedPending = false → Told "lab" e.2.records := by decide +kernel
  refine (((split_commit_resolved_iff "lab" (splitCluster settledNode) fun _ => sampleRecovery).1
    { target := "g2", rollback := ["node0"] } (by decide +kernel)).2 (by decide +kernel)).mpr ?_
  exact fun name v hv => htold ⟨name, v⟩ (mem_lookup_iff.mp hv)

/-- The same split is reported for a node that has not committed `g2`, and after
    it is resolved that node is still at `g1`. -/
theorem split_cluster_unsaved :
    (clusterReport "lab" (splitCluster unsavedNode)).detectSplitCommit =
        some { target := "g2", rollback := ["node0"] } ∧
      (resolveSplitCommit "lab" { target := "g2", rollback := ["node0"] }
        (fun _ => sampleRecovery) (splitCluster unsavedNode)).2 = true ∧
      ((resolveSplitCommit "lab" { target := "g2", rollback := ["node0"] }
        (fun _ => sampleRecovery) (splitCluster unsavedNode)).1.lookup "node0").map
          (fun r => (r.generation "lab").committed) = some "g2" ∧
      ((resolveSplitCommit "lab" { target := "g2", rollback := ["node0"] }
        (fun _ => sampleRecovery) (splitCluster unsavedNode)).1.lookup "node1").map
          (fun r => (r.generation "lab").committed) = some "g1" := by
  decide +kernel

end Client

end Twinet
