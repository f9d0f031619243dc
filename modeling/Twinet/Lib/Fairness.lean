import Mathlib.Data.List.GetD
import Mathlib.Order.WellFounded

/-!
# Runs That Go On

Endless runs of a machine whose step is a partial function of an action, and
what fairness makes happen in them. A party that can move and is not stopped
from moving moves at some time; nothing is said about when.

`holds_until` is the one induction over time. A condition that only one kind of
step can end holds up to any later time, or up to such a step. With
`Run.Fair.leads` that step comes, and `leads_of_rank` chains finitely many of
them when each brings the goal nearer.

## Main definitions

* `Run`: An endless run.
* `Run.Fair`: A party that can move moves at some time.

## Theorems

* `Run.always`: A property every step keeps holds at every time.
* `holds_until`: A condition holds until what can end it.
* `Run.Fair.leads`: A condition that lets a party move, and that only its move
  ends, leads to the move.
* `leads_of_rank`: What comes nearer again and again comes.
-/

namespace Twinet

variable {n : Nat}

/-- What comes nearer again and again comes. -/
theorem leads_of_rank {ρ : Type} [LT ρ] [WellFoundedLT ρ] {P Q : Nat → Prop} (rank : Nat → ρ)
    (h : ∀ n, P n → (∃ m ≥ n, Q m) ∨ ∃ m ≥ n, P m ∧ rank m < rank n) (hn : P n) : ∃ m ≥ n, Q m := by
  -- The induction is on the rank, over all times of that rank.
  suffices hall : ∀ c : ρ, ∀ n, rank n = c → P n → ∃ m ≥ n, Q m from hall _ n rfl hn
  intro c
  induction c using WellFoundedLT.induction with
  | ind c ih =>
    rintro n rfl hn
    rcases h n hn with hq | ⟨m, hm, hp, hlt⟩
    · exact hq
    · obtain ⟨k, hk, hq⟩ := ih _ hlt m rfl hp
      exact ⟨k, le_trans hm hk, hq⟩

/-- A condition holds until what can end it. -/
theorem holds_until {P E : Nat → Prop} (hstay : ∀ k, P k → ¬ E k → P (k + 1)) {m : Nat}
    (hnm : n ≤ m) (hP : P n) : P m ∨ ∃ k ≥ n, P k ∧ E k := by
  induction m, hnm using Nat.le_induction with
  | base => exact .inl hP
  | succ m hnm ih =>
    rcases ih with hm | hend
    · by_cases hE : E m
      · exact .inr ⟨m, hnm, hm, hE⟩
      · exact .inl (hstay m hm hE)
    · exact .inr hend

variable {S A : Type} {step : S → A → Option S}

/-- An endless run. -/
structure Run (step : S → A → Option S) where
  state : Nat → S
  act : Nat → A
  next : ∀ n, step (state n) (act n) = some (state (n + 1))

namespace Run

variable (run : Run step)

/-- What every step keeps holds at all times. -/
theorem always {I : S → Prop} (h0 : I (run.state 0))
    (hstep : ∀ n, I (run.state n) → I (run.state (n + 1))) (n : Nat) : I (run.state n) := by
  induction n with
  | zero => exact h0
  | succ n ih => exact hstep n ih

/-- A party that can move moves at some time, or comes not to be able to. -/
def Fair (enabled : S → Prop) (mine : A → Prop) : Prop :=
  ∀ n, enabled (run.state n) → ∃ m ≥ n, mine (run.act m) ∨ ¬ enabled (run.state m)

variable {run}

/-- A condition that lets a party move, and that only its move ends, leads to
    the move. -/
theorem Fair.leads {enabled P : S → Prop} {mine : A → Prop} (hfair : run.Fair enabled mine)
    (hP : ∀ s, P s → enabled s) (hstay : ∀ s a s', P s → ¬ mine a → step s a = some s' → P s')
    (hn : P (run.state n)) : ∃ m ≥ n, P (run.state m) ∧ mine (run.act m) := by
  obtain ⟨m, hm, hmove⟩ := hfair n (hP _ hn)
  rcases holds_until (P := fun k => P (run.state k)) (E := fun k => mine (run.act k))
    (fun k hk hmine => hstay _ _ _ hk hmine (run.next k)) hm hn with hheld | hend
  · exact ⟨m, hm, hheld, hmove.resolve_right fun hne => hne (hP _ hheld)⟩
  · exact hend

section OfList

variable (step) (s : S) (acts : List A) (rest : A)

/-- The states along finitely many actions, with one action ever after. A step
    that cannot be made is left out. -/
def along : Nat → S
  | 0 => s
  | n + 1 => (step (along n) (acts.getD n rest)).getD (along n)

variable {step s acts rest}

theorem along_of_le
    (hrest : step (along step s acts rest acts.length) rest =
      some (along step s acts rest acts.length)) (hn : acts.length ≤ n) :
    along step s acts rest n = along step s acts rest acts.length := by
  induction n, hn using Nat.le_induction with
  | base => rfl
  | succ n hn ih =>
    rw [along, ih, List.getD_eq_default _ _ hn, hrest]
    rfl

/-- Finitely many actions, and then one that changes nothing. -/
def ofList (step : S → A → Option S) (s : S) (acts : List A) (rest : A)
    (hacts : ∀ n < acts.length, (step (along step s acts rest n) (acts.getD n rest)).isSome)
    (hrest : step (along step s acts rest acts.length) rest =
      some (along step s acts rest acts.length)) : Run step where
  state := along step s acts rest
  act := (acts.getD · rest)
  next := fun n => by
    by_cases hn : n < acts.length
    · obtain ⟨s', hs'⟩ := Option.isSome_iff_exists.mp (hacts n hn)
      rw [along, hs']
      rfl
    · rw [List.getD_eq_default _ _ (not_lt.mp hn), along_of_le hrest (not_lt.mp hn),
        along_of_le hrest (Nat.le_succ_of_le (not_lt.mp hn)), hrest]

theorem fair_ofList
    {hacts : ∀ n < acts.length, (step (along step s acts rest n) (acts.getD n rest)).isSome}
    {hrest : step (along step s acts rest acts.length) rest =
      some (along step s acts rest acts.length)} {enabled : S → Prop} {mine : A → Prop}
    (h : ¬ enabled (along step s acts rest acts.length)) :
    (ofList step s acts rest hacts hrest).Fair enabled mine := by
  intro n _
  refine ⟨max n acts.length, le_max_left _ _, .inr ?_⟩
  have hend : (ofList step s acts rest hacts hrest).state (max n acts.length) =
      along step s acts rest acts.length :=
    along_of_le hrest (le_max_right _ _)
  rwa [hend]

end OfList

end Run

end Twinet
