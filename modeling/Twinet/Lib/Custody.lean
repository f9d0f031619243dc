import Twinet.Lib.Machine

/-!
# Custody

A machine whose states say who holds each of some things. What is wanted of it is
a statement about runs: as long as a thing is held, it is held by the same one.
It can be given up and taken by another, but it does not change hands.

`Machine.exclusive_iff_along` reduces that to single steps, so a run is judged by
looking at what each action does to the holders.

## Main definitions

* `Keeps`: Nothing changes hands in a step.
* `Exclusive`: Nothing does in a run, as long as it is held.

## Theorems

* `Machine.along_append`: A condition along a concatenation.
* `Machine.holder_eq_of_along`: What is held all along is held by the same one.
* `Machine.exclusive_iff_along`: Custody is a matter of single steps.
-/

namespace Machine

variable {S A O K L : Type} (m : Machine S A O) (holder : S → K → Option L)

/-- A condition holds along both halves. -/
theorem along_append (P : S → A → Prop) (s : S) (as bs : List A) :
    m.Along P s (as ++ bs) ↔ m.Along P s as ∧ m.Along P (m.run s as) bs := by
  induction as generalizing s with
  | nil => exact (true_and _).symm.to_iff
  | cons a as ih =>
    simp [Along, run, ih, and_assoc]

variable {as : List A}

/-- Nothing that is held before and after changes hands. -/
def Keeps (s s' : S) : Prop :=
  ∀ k a b, holder s k = some a → holder s' k = some b → a = b

/-- In a run nothing changes hands as long as it is held. -/
def Exclusive (s : S) (as : List A) : Prop :=
  ∀ xs ys zs, as = xs ++ ys ++ zs → ∀ k a b, holder (m.run s xs) k = some a →
    (∀ us vs, ys = us ++ vs → (holder (m.run s (xs ++ us)) k).isSome = true) →
    holder (m.run s (xs ++ ys)) k = some b → a = b

variable {m holder}

/-- What is held all along has one holder. -/
theorem holder_eq_of_along {s : S} {k : K} {a b : L}
    (h : m.Along (fun s a => Keeps holder s (m.step s a).1) s as) (ha : holder s k = some a)
    (hheld : ∀ us vs, as = us ++ vs → (holder (m.run s us) k).isSome = true)
    (hb : holder (m.run s as) k = some b) : a = b := by
  induction as generalizing s a with
  | nil => exact Option.some.inj (ha.symm.trans hb)
  | cons c as ih =>
    obtain ⟨a', ha'⟩ := Option.isSome_iff_exists.mp (hheld [c] as rfl)
    rw [h.1 k a a' ha ha']
    exact ih h.2 ha' (fun us vs hsplit => hheld (c :: us) vs
      (by rw [hsplit, List.cons_append])) hb

/-- Custody is a matter of single steps. -/
theorem exclusive_iff_along (s : S) (as : List A) :
    m.Exclusive holder s as ↔ m.Along (fun s a => Keeps holder s (m.step s a).1) s as := by
  constructor
  · intro h
    induction as generalizing s with
    | nil => trivial
    | cons c as ih =>
      refine ⟨fun k a b ha hb => ?_, ih (m.step s c).1 fun xs ys zs hsplit => ?_⟩
      · -- a single step is held throughout if it is held before and after
        refine h [] [c] as rfl k a b ha (fun us vs hsplit => ?_) hb
        rcases us with _ | ⟨c', us⟩
        · exact Option.isSome_iff_exists.mpr ⟨a, ha⟩
        · obtain ⟨rfl, hnil⟩ := List.cons.inj hsplit
          obtain ⟨rfl, -⟩ := List.append_eq_nil_iff.mp hnil.symm
          exact Option.isSome_iff_exists.mpr ⟨b, hb⟩
      · exact h (c :: xs) ys zs (by rw [hsplit, List.cons_append, List.cons_append])
  · rintro h xs ys zs rfl k a b ha hheld hb
    rw [along_append, along_append] at h
    rw [run_append] at hb
    exact holder_eq_of_along h.1.2 ha
      (fun us vs hsplit => by rw [← run_append]; exact hheld us vs hsplit) hb

end Machine
