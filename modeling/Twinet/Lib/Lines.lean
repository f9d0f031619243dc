import Mathlib.Data.List.Basic

/-!
# Logs of Lines

A log is a list of entries in which separators end the lines. What follows the last
separator is a line that was begun and not ended.

Writing to the end of a log goes on with the line that was begun. So what a write
does depends on the log only through its rest, and a log cut short has the lines it
had, except that the last one may have become its rest.

## Main definitions

* `complete`, `rest`: The lines that are ended, and what follows them.

## Theorems

* `complete_append`, `rest_append`: A write goes on from the rest.
* `complete_append_free`, `complete_append_line`: A write within a line, and one that
  ends it.
* `complete_flatMap`: A log of whole lines.
* `complete_map`: The lines depend on the separators only.
* `prefix_of_mem_pieces_append`: What a log cut short is made of.
-/

namespace Twinet

namespace Lines

open List

variable {α β : Type} (sep : α → Bool)

/-- Cut a log after each separator, and leave the separators out. -/
def cut : List α → List (List α) × List α
  | [] => ([], [])
  | a :: l =>
    if sep a then ([] :: (cut l).1, (cut l).2)
    else match cut l with
      | ([], rest) => ([], a :: rest)
      | (line :: lines, rest) => ((a :: line) :: lines, rest)

/-- The lines that are ended. -/
def complete (l : List α) : List (List α) := (cut sep l).1

/-- What follows the last separator. -/
def rest (l : List α) : List α := (cut sep l).2

def pieces (l : List α) : List (List α) := complete sep l ++ [rest sep l]

variable {sep} {l : List α}

theorem cut_of_free (h : ∀ a ∈ l, sep a = false) : cut sep l = ([], l) := by
  induction l with
  | nil => rfl
  | cons a l ih =>
    simp [cut, h a mem_cons_self, ih fun b hb => h b (mem_cons_of_mem _ hb)]

/-- An entry that is no separator is in the rest if no separator follows. -/
theorem rest_cons (a : α) (l : List α) :
    rest sep (a :: l) = rest sep l ∨ sep a = false ∧ rest sep (a :: l) = a :: rest sep l := by
  unfold rest
  rw [cut]
  by_cases ha : sep a = true
  · rw [if_pos ha]
    exact .inl rfl
  · rw [if_neg ha]
    rcases cut sep l with ⟨_ | _, _⟩
    · exact .inr ⟨Bool.not_eq_true _ ▸ ha, rfl⟩
    · exact .inl rfl

theorem rest_free (l : List α) : ∀ a ∈ rest sep l, sep a = false := by
  induction l with
  | nil => exact nofun
  | cons b l ih =>
    rcases @rest_cons _ sep b l with h | ⟨hb, h⟩
    · rwa [h]
    · rw [h]
      exact forall_mem_cons.mpr ⟨hb, ih⟩

theorem rest_sublist (l : List α) : rest sep l <+ l := by
  induction l with
  | nil => exact .slnil
  | cons b l ih =>
    rcases @rest_cons _ sep b l with h | ⟨-, h⟩
    · exact h ▸ ih.cons b
    · exact h ▸ ih.cons_cons b

theorem cut_append (l m : List α) :
    cut sep (l ++ m) =
      (complete sep l ++ complete sep (rest sep l ++ m), rest sep (rest sep l ++ m)) := by
  unfold complete rest
  induction l with
  | nil => rfl
  | cons a l ih =>
    rw [cons_append]
    by_cases ha : sep a = true
    · simp [cut, ha, ih]
    · simp only [cut, ha, Bool.false_eq_true, if_false, ih]
      cases hcut : cut sep l with
      | mk lines rest =>
        cases lines with
        | nil => simp [cut, ha]
        | cons line lines => simp

/-- A write goes on with the line that was begun. -/
theorem complete_append (l m : List α) :
    complete sep (l ++ m) = complete sep l ++ complete sep (rest sep l ++ m) := by
  rw [complete, cut_append]

theorem mem_complete_append {line m : List α} (h : line ∈ complete sep l) :
    line ∈ complete sep (l ++ m) := by
  rw [complete_append]
  exact mem_append_left _ h

/-- So does what it leaves. -/
theorem rest_append (l m : List α) : rest sep (l ++ m) = rest sep (rest sep l ++ m) := by
  rw [rest, cut_append]

theorem complete_of_free (h : ∀ a ∈ l, sep a = false) : complete sep l = [] := by
  rw [complete, cut_of_free h]

theorem rest_of_free (h : ∀ a ∈ l, sep a = false) : rest sep l = l := by
  rw [rest, cut_of_free h]

section Write

variable (l : List α) {m : List α} (h : ∀ a ∈ m, sep a = false)

include h

theorem rest_append_mem_free : ∀ a ∈ rest sep l ++ m, sep a = false :=
  forall_mem_append.mpr ⟨rest_free l, h⟩

/-- A write within a line ends none. -/
theorem complete_append_free : complete sep (l ++ m) = complete sep l := by
  rw [complete_append, complete_of_free (rest_append_mem_free l h), append_nil]

theorem rest_append_free : rest sep (l ++ m) = rest sep l ++ m := by
  rw [rest_append, rest_of_free (rest_append_mem_free l h)]

variable {s : α}

section

variable (hs : sep s = true)

include hs

theorem cut_concat : cut sep (m ++ [s]) = ([m], []) := by
  induction m with
  | nil => simp [cut, hs]
  | cons a m ih =>
    rw [cons_append, cut, h a mem_cons_self,
      ih fun b hb => h b (mem_cons_of_mem _ hb)]
    rfl

theorem complete_concat : complete sep (m ++ [s]) = [m] := by
  rw [complete, cut_concat h hs]

theorem rest_concat : rest sep (m ++ [s]) = [] := by
  rw [rest, cut_concat h hs]

/-- A write up to a separator ends one. -/
theorem complete_append_line :
    complete sep (l ++ (m ++ [s])) = complete sep l ++ [rest sep l ++ m] := by
  rw [complete_append, ← append_assoc (rest sep l),
    complete_concat (rest_append_mem_free l h) hs]

theorem rest_append_line : rest sep (l ++ (m ++ [s])) = [] := by
  rw [rest_append, ← append_assoc, rest_concat (rest_append_mem_free l h) hs]

end

end Write

section Whole

variable {ι : Type} {items : List ι} {line : ι → List α} {stop : ι → α}
  (h : ∀ i ∈ items, ∀ a ∈ line i, sep a = false) (hs : ∀ i, sep (stop i) = true)

include h hs

theorem cut_flatMap :
    cut sep (items.flatMap fun i => line i ++ [stop i]) = (items.map line, []) := by
  induction items with
  | nil => rfl
  | cons i items ih =>
    have hitems := ih fun j hj => h j (mem_cons_of_mem _ hj)
    have hfirst := cut_concat (h i mem_cons_self) (hs i)
    rw [flatMap_cons, cut_append, complete, rest, hfirst, nil_append, complete, rest,
      hitems]
    rfl

/-- A log of whole lines. -/
theorem complete_flatMap :
    complete sep (items.flatMap fun i => line i ++ [stop i]) = items.map line := by
  rw [complete, cut_flatMap h hs]

theorem rest_flatMap : rest sep (items.flatMap fun i => line i ++ [stop i]) = [] := by
  rw [rest, cut_flatMap h hs]

end Whole

theorem cut_map (f : β → α) (l : List β) :
    cut sep (l.map f) =
      ((complete (sep ∘ f) l).map (map f), (rest (sep ∘ f) l).map f) := by
  unfold complete rest
  induction l with
  | nil => rfl
  | cons b l ih =>
    simp only [map_cons, cut, Function.comp_apply]
    by_cases hb : sep (f b) = true
    · simp [hb, ih]
    · simp only [hb, Bool.false_eq_true, if_false, ih]
      cases hcut : cut (sep ∘ f) l with
      | mk lines rest =>
        cases lines with
        | nil => simp
        | cons line lines => simp

/-- Only the separators matter. -/
theorem complete_map (f : β → α) (l : List β) :
    complete sep (l.map f) = (complete (sep ∘ f) l).map (map f) := by
  rw [complete, cut_map]

theorem exists_piece_append (h : ∀ a ∈ l, sep a = false) (m : List α) :
    ∃ more, (pieces sep (l ++ m)).head? = some (l ++ more) := by
  unfold pieces complete rest
  induction l with
  | nil =>
    cases hcut : cut sep m with
    | mk lines rest =>
      cases lines with
      | nil => exact ⟨rest, by simp [hcut]⟩
      | cons line lines => exact ⟨line, by simp [hcut]⟩
  | cons a l ih =>
    obtain ⟨more, hmore⟩ := ih fun b hb => h b (mem_cons_of_mem _ hb)
    refine ⟨more, ?_⟩
    rw [cons_append, cut, h a mem_cons_self]
    cases hcut : cut sep (l ++ m) with
    | mk lines rest =>
      rw [hcut] at hmore
      cases lines with
      | nil =>
        simp only [nil_append, head?_cons, Option.some.injEq] at hmore
        simp [hmore]
      | cons line lines =>
        simp only [cons_append, head?_cons, Option.some.injEq] at hmore
        simp [hmore]

/-- A piece of a log cut short begins a piece of it. -/
theorem prefix_of_mem_pieces_append {m : List α} {p : List α} (hp : p ∈ pieces sep l) :
    ∃ q ∈ pieces sep (l ++ m), p <+: q := by
  have hsplit : pieces sep (l ++ m) = complete sep l ++ pieces sep (rest sep l ++ m) := by
    rw [pieces, complete_append, rest_append, pieces, append_assoc]
  rw [hsplit]
  rcases mem_append.mp hp with hline | hrest
  · exact ⟨p, mem_append_left _ hline, prefix_refl p⟩
  · rw [mem_singleton] at hrest
    obtain ⟨more, hmore⟩ := exists_piece_append (rest_free l) m
    refine ⟨rest sep l ++ more, mem_append_right _ (mem_of_head? hmore), ?_⟩
    rw [hrest]
    exact prefix_append _ _

end Lines

end Twinet
