import Mathlib.Data.Nat.Digits.Lemmas

/-!
# Printed Numbers

A number printed in a base of at most sixteen, without padding, as a list of
characters. A printed number can be read back, and it has letters and digits
only, so it can also be told apart from whatever stops it.

## Main definitions

* `print`, `read`: A number in a base, printed and read.

## Theorems

* `Numeral.read_print`: A printed number is read back.
* `Numeral.print_injective`: Different numbers are printed differently.
* `Numeral.isAlphanum_of_mem_print`: What a printed number is made of.
* `Numeral.append_stop_inj`: A word can be told apart from what stops it.
-/

namespace Numeral

open List Nat

/-- The digits of a number, least significant first, with one for zero. -/
def digits (b n : Nat) : List Nat := if n = 0 then [0] else Nat.digits b n

/-- A number in a base, most significant digit first and without padding. -/
def print (b n : Nat) : List Char := ((digits b n).map digitChar).reverse

def digitValue (c : Char) : Nat := if c ≤ '9' then c.toNat - 48 else c.toNat - 87

/-- The number a list of digits stands for. -/
def read (b : Nat) (cs : List Char) : Nat := ofDigits b (cs.reverse.map digitValue)

/-- A byte in two hexadecimal digits. -/
def hexByte (b : UInt8) : List Char :=
  [digitChar (b.toNat / 16), digitChar (b.toNat % 16)]

variable {b n d : Nat}

theorem digit_lt (hb : 1 < b) (hd : d ∈ digits b n) : d < b := by
  unfold digits at hd
  split_ifs at hd
  · rw [mem_singleton.mp hd]
    exact lt_of_succ_lt hb
  · exact digits_lt_base hb hd

theorem digitValue_digitChar (hd : d < 16) : digitValue (digitChar d) = d := by
  have hall : ∀ x : Fin 16, digitValue (digitChar x) = x := by decide
  exact hall ⟨d, hd⟩

/-- A printed number is read back. -/
theorem read_print (hb : 1 < b) (hb' : b ≤ 16) : read b (print b n) = n := by
  have hvalues : ((digits b n).map digitChar).map digitValue = digits b n := by
    rw [map_map]
    conv_rhs => rw [← map_id (digits b n)]
    refine map_congr_left fun d hd => ?_
    exact digitValue_digitChar (lt_of_lt_of_le (digit_lt hb hd) hb')
  rw [read, print, reverse_reverse, hvalues, digits]
  by_cases hn : n = 0
  · rw [if_pos hn, hn, ofDigits_singleton]
  · rw [if_neg hn, ofDigits_digits]

/-- Different numbers are printed differently. -/
theorem print_injective (hb : 1 < b) (hb' : b ≤ 16) : Function.Injective (print b) :=
  Function.LeftInverse.injective (g := read b) fun _ => read_print hb hb'

theorem isAlphanum_digitChar (hd : d < 16) : (digitChar d).isAlphanum = true := by
  have hall : ∀ x : Fin 16, (digitChar x).isAlphanum = true := by decide
  exact hall ⟨d, hd⟩

/-- Only letters and digits are printed. -/
theorem isAlphanum_of_mem_print (hb : 1 < b) (hb' : b ≤ 16) {c : Char} (hc : c ∈ print b n) :
    c.isAlphanum = true := by
  rw [print, mem_reverse, mem_map] at hc
  obtain ⟨d, hd, rfl⟩ := hc
  exact isAlphanum_digitChar (lt_of_lt_of_le (digit_lt hb hd) hb')

theorem isAlphanum_of_mem_hexByte {x : UInt8} {c : Char} (hc : c ∈ hexByte x) :
    c.isAlphanum = true := by
  have hx : x.toNat < 256 := x.toNat_lt
  simp only [hexByte, mem_cons, not_mem_nil, or_false] at hc
  rcases hc with rfl | rfl
  · exact isAlphanum_digitChar (by omega)
  · exact isAlphanum_digitChar (by omega)

/-- A word that goes on as long as its characters are of one sort can be told
    apart from what stops it. -/
theorem append_stop_inj {α : Type} {p : α → Bool} {xs ys ss ts : List α}
    (hxs : ∀ x ∈ xs, p x = true) (hys : ∀ y ∈ ys, p y = true)
    (hss : ∀ s ∈ ss.head?, p s = false) (hts : ∀ t ∈ ts.head?, p t = false)
    (h : xs ++ ss = ys ++ ts) : xs = ys ∧ ss = ts := by
  have htake : ∀ {zs us : List α}, (∀ z ∈ zs, p z = true) → (∀ u ∈ us.head?, p u = false) →
      (zs ++ us).takeWhile p = zs := by
    intro zs us hzs hus
    rw [takeWhile_append_of_pos hzs]
    cases us with
    | nil => simp
    | cons u us => simp [hus u (by simp)]
  have hwords : xs = ys := by rw [← htake hxs hss, h, htake hys hts]
  exact ⟨hwords, append_cancel_left (hwords ▸ h)⟩

end Numeral
