import Mathlib.Data.String.Basic

/-!
# Base64

The unpadded encoding with the alphabet for URLs: three bytes are four digits of six
bits, and one or two bytes at the end are two or three digits. Line ends are skipped by
the decoder, and so are the bits of the last digit that no byte needs.

## Main definitions

* `encodeBytes`, `decodeDigits`: The regrouping of bits.
* `rawURLEncode`, `rawURLDecode`: The codec of texts.

## Theorems

* `rawURLDecode_rawURLEncode`: Every text is read back.
-/

namespace Twinet

namespace Base64

open List

def alphabet : List Char :=
  "ABCDEFGHIJKLMNOPQRSTUVWXYZabcdefghijklmnopqrstuvwxyz0123456789-_".toList

def digit (n : Nat) : Char := alphabet.getD n '_'

def value (c : Char) : Option Nat := alphabet.findIdx? (· = c)

def isLineEnd (c : Char) : Bool := c = '\n' || c = '\r'

def encodeBytes : List Nat → List Nat
  | a :: b :: c :: rest =>
    a / 4 :: (a % 4 * 16 + b / 16) :: (b % 16 * 4 + c / 64) :: c % 64 :: encodeBytes rest
  | [a, b] => [a / 4, a % 4 * 16 + b / 16, b % 16 * 4]
  | [a] => [a / 4, a % 4 * 16]
  | [] => []

/-- A single digit at the end is not enough for a byte. -/
def decodeDigits : List Nat → Option (List Nat)
  | w :: x :: y :: z :: rest =>
    (decodeDigits rest).map fun bytes =>
      (w * 4 + x / 16) :: (x % 16 * 16 + y / 4) :: (y % 4 * 64 + z) :: bytes
  | [w, x, y] => some [w * 4 + x / 16, x % 16 * 16 + y / 4]
  | [w, x] => some [w * 4 + x / 16]
  | [_] => none
  | [] => some []

def rawURLEncode (s : String) : String :=
  .ofList ((encodeBytes (s.toByteArray.data.toList.map UInt8.toNat)).map digit)

def rawURLDecode (text : String) : Option String := do
  let digits ← (text.toList.filter fun c => !isLineEnd c).mapM value
  let bytes ← decodeDigits digits
  String.fromUTF8? ⟨(bytes.map UInt8.ofNat).toArray⟩

theorem decodeDigits_encodeBytes (bytes : List Nat) (h : ∀ b ∈ bytes, b < 256) :
    decodeDigits (encodeBytes bytes) = some bytes := by
  fun_induction encodeBytes bytes with
  | case1 a b c rest ih =>
    simp only [forall_mem_cons] at h
    obtain ⟨ha, hb, hc, hrest⟩ := h
    rw [decodeDigits, ih hrest, Option.map_some]
    simp only [Option.some.injEq, cons.injEq, and_true]
    omega
  | case2 a b =>
    simp only [forall_mem_cons] at h
    simp only [decodeDigits, Option.some.injEq, cons.injEq, and_true]
    omega
  | case3 a =>
    simp only [forall_mem_cons] at h
    simp only [decodeDigits, Option.some.injEq, cons.injEq, and_true]
    omega
  | case4 => rfl

/-- Six bits are a digit, which no line end is. -/
theorem value_digit : ∀ n < 64, value (digit n) = some n ∧ isLineEnd (digit n) = false := by
  decide +kernel

theorem encodeBytes_lt (bytes : List Nat) (h : ∀ b ∈ bytes, b < 256) :
    ∀ n ∈ encodeBytes bytes, n < 64 := by
  fun_induction encodeBytes bytes with
  | case1 a b c rest ih =>
    simp only [forall_mem_cons] at h ⊢
    obtain ⟨ha, hb, hc, hrest⟩ := h
    exact ⟨by omega, by omega, by omega, by omega, ih hrest⟩
  | case2 a b | case3 a =>
    simp only [forall_mem_cons] at h ⊢
    simp
    omega
  | case4 => simp

theorem mapM_value_digits {digits : List Nat} (h : ∀ n ∈ digits, n < 64) :
    ((digits.map digit).filter fun c => !isLineEnd c).mapM value = some digits := by
  have hkept : ∀ c ∈ digits.map digit, (!isLineEnd c) = true := by
    intro c hc
    obtain ⟨n, hn, rfl⟩ := mem_map.mp hc
    rw [(value_digit n (h n hn)).2]
    rfl
  rw [filter_eq_self.mpr hkept, mapM_map]
  induction digits with
  | nil => rfl
  | cons n ns ih =>
    rw [forall_mem_cons] at h
    simp [(value_digit n h.1).1, ih h.2 fun c hc => hkept c (mem_cons_of_mem _ hc)]

/-- Every text is read back. -/
theorem rawURLDecode_rawURLEncode (s : String) : rawURLDecode (rawURLEncode s) = some s := by
  have hbytes : ∀ b ∈ s.toByteArray.data.toList.map UInt8.toNat, b < 256 := by
    intro b hb
    obtain ⟨u, -, rfl⟩ := mem_map.mp hb
    exact u.toNat_lt
  have hback : (s.toByteArray.data.toList.map UInt8.toNat).map UInt8.ofNat =
      s.toByteArray.data.toList := by
    rw [map_map]
    exact (map_congr_left fun _ _ => UInt8.ofNat_toNat).trans (map_id _)
  have hvalid : String.fromUTF8? ⟨s.toByteArray.data.toList.toArray⟩ = some s := by
    rw [Array.toArray_toList]
    exact dif_pos s.isValidUTF8
  rw [rawURLDecode, rawURLEncode, String.toList_ofList,
    mapM_value_digits (encodeBytes_lt _ hbytes)]
  simp only [Option.bind_eq_bind, Option.bind_some, decodeDigits_encodeBytes _ hbytes, hback]
  exact hvalid

end Base64

end Twinet
