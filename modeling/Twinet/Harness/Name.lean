import Twinet.Lib.Numeral

/-!
# Harness Names

A harness is the part of a class lab that one submission is marked in. Its lab
name is that of the class lab, the number of the AS that is marked and, where the
submission has an identity of its own, a readable form of it and a digest.
Everything else in a harness is named after its lab, so two harnesses of one name
share their containers.

The readable form forgets most of the identity and is cut off, and of the digest
only sixteen bits are printed, without padding. The name says which AS is marked
and whether there was a submission, and nothing else for certain.

## Main definitions

* `sanitise`, `shortDigest`: The readable form and the digest of an identity.
* `harnessName`: The lab name of a harness.
* `Confused`: Two identities that neither tells apart.

## Theorems

* `harnessName_eq_iff`: When two submissions share a name.
* `harness_names_unique_iff`: Two submissions have different names unless they
  are confused, and no submission has the name of none.
-/

namespace Twinet

namespace Harness

open List

/-- Lower case, as far as it leads to an ASCII character. The dotted capital I
    and the Kelvin sign are the only others that do. -/
def lowerRune (r : Char) : Char :=
  if r = Char.ofNat 0x130 then 'i' else if r = Char.ofNat 0x212A then 'k' else r.toLower

/-- What becomes of one character of an identity. -/
def sanitiseRune (r : Char) : Option Char :=
  if ('a' ≤ r && r ≤ 'z') || ('0' ≤ r && r ≤ '9') then some r
  else if r = '-' || r = '_' then some '-'
  else none

/-- A list without the dashes at either end. -/
def trimDashes (cs : List Char) : List Char :=
  ((cs.dropWhile (· = '-')).reverse.dropWhile (· = '-')).reverse

section

variable (s : String) (lab : List Char) (asn : Nat) (suffix : String)

/-- The readable form of an identity. -/
def sanitise : List Char :=
  let out := trimDashes ((s.toList.map lowerRune).filterMap sanitiseRune)
  if out.length > 24 then trimDashes (out.take 24) else out

/-- The FNV-1a digest of a list of bytes. -/
def fnv64a (bytes : List UInt8) : UInt64 :=
  bytes.foldl (fun h byte => (h ^^^ byte.toUInt64) * 1099511628211) 14695981039346656037

def utf8 : List UInt8 := s.toList.flatMap String.utf8EncodeChar

/-- What is printed of the digest of an identity. -/
def shortDigest : List Char :=
  Numeral.print 16 ((fnv64a (utf8 s)) &&& 0xffff).toNat

def harnessBase : List Char :=
  lab ++ '-' :: 'g' :: Numeral.print 10 asn

/-- The lab name of a harness. -/
def harnessName : List Char :=
  if suffix = "" then harnessBase lab asn
  else harnessBase lab asn ++ '-' :: (sanitise suffix ++ shortDigest suffix)

/-- The readable form of one identity is that of the other and the first digits
    of its digest, and the remaining digits are the digest of the one. -/
def Absorbed (s' : String) : Prop :=
  ∃ ds, sanitise s = sanitise s' ++ ds ∧ shortDigest s' = ds ++ shortDigest s

theorem absorbed_iff {s s' : String} :
    Absorbed s s' ↔ sanitise s = sanitise s' ++ (sanitise s).drop (sanitise s').length ∧
      shortDigest s' = (sanitise s).drop (sanitise s').length ++ shortDigest s := by
  constructor
  · rintro ⟨ds, htext, hdigest⟩
    rw [htext, drop_left]
    exact ⟨rfl, hdigest⟩
  · exact fun h => ⟨_, h⟩

instance decidableAbsorbed (s s' : String) : Decidable (Absorbed s s') :=
  decidable_of_iff _ absorbed_iff.symm

/-- Two identities that neither the readable form nor the digest tells apart. -/
def Confused (s' : String) : Prop := Absorbed s s' ∨ Absorbed s' s

instance decidableConfused (s s' : String) : Decidable (Confused s s') :=
  inferInstanceAs (Decidable (_ ∨ _))

/-- What follows the number of the AS. -/
def submissionPart : List Char :=
  if suffix = "" then [] else '-' :: (sanitise suffix ++ shortDigest suffix)

theorem harnessName_eq :
    harnessName lab asn suffix =
      lab ++ '-' :: 'g' :: (Numeral.print 10 asn ++ submissionPart suffix) := by
  unfold harnessName submissionPart harnessBase
  split_ifs <;> simp

theorem submissionPart_head : ∀ c ∈ (submissionPart suffix).head?, c.isAlphanum = false := by
  unfold submissionPart
  split_ifs
  · simp
  · simp only [head?_cons, Option.mem_some_iff, forall_eq']
    decide

end

variable {lab : List Char}

theorem harnessName_inj {asn asn' : Nat} {s s' : String} :
    harnessName lab asn s = harnessName lab asn' s' ↔
      asn = asn' ∧ submissionPart s = submissionPart s' := by
  rw [harnessName_eq, harnessName_eq, append_right_inj, cons_inj_right,
    cons_inj_right]
  constructor
  · intro h
    obtain ⟨hasn, hpart⟩ := Numeral.append_stop_inj
      (fun c hc => Numeral.isAlphanum_of_mem_print (by decide) (by decide) hc)
      (fun c hc => Numeral.isAlphanum_of_mem_print (by decide) (by decide) hc)
      (submissionPart_head s) (submissionPart_head s') h
    exact ⟨Numeral.print_injective (by decide) (by decide) hasn, hpart⟩
  · rintro ⟨rfl, hpart⟩
    rw [hpart]

/-- Names agree for one AS and confused identities. -/
theorem harnessName_eq_iff {asn asn' : Nat} {s s' : String} (hs : s ≠ "") (hs' : s' ≠ "") :
    harnessName lab asn s = harnessName lab asn' s' ↔ asn = asn' ∧ Confused s s' := by
  rw [harnessName_inj, submissionPart, submissionPart, if_neg hs, if_neg hs', cons_inj_right,
    append_eq_append_iff]
  refine and_congr_right fun _ => ?_
  rw [Confused, or_comm]
  exact Iff.rfl

/-- Two submissions of a class lab have different names unless they are of one
    AS and are confused, and no submission has the name of none. -/
theorem harness_names_unique_iff (lab : List Char) (asn asn' : Nat) (s s' : String) (hs : s ≠ "")
    (hs' : s' ≠ "") :
    (harnessName lab asn s ≠ harnessName lab asn' s' ↔ (asn = asn' → ¬ Confused s s')) ∧
      harnessName lab asn s ≠ harnessName lab asn' "" := by
  constructor
  · rw [ne_eq, harnessName_eq_iff hs hs', not_and]
  · intro h
    have hpart := (harnessName_inj.mp h).2
    rw [submissionPart, submissionPart, if_neg hs, if_pos rfl] at hpart
    nomatch hpart

/-- Two submissions of AS 7 that are told apart. -/
theorem written_differently_named_differently :
    harnessName "cos461".toList 7 "group 7 (late)" ≠ harnessName "cos461".toList 7 "group-7-late" :=
  (harness_names_unique_iff "cos461".toList 7 7 "group 7 (late)" "group-7-late" (by decide)
    (by decide)).1.mpr fun _ => by decide +kernel

/-- Two submissions of AS 7 whose full digests differ, in one harness. -/
theorem two_submissions_share_name :
    "g7#+" ≠ "g7++@@" ∧ fnv64a (utf8 "g7#+") ≠ fnv64a (utf8 "g7++@@") ∧
      harnessName "cos461".toList 7 "g7#+" = harnessName "cos461".toList 7 "g7++@@" ∧
      harnessName "cos461".toList 7 "g7#+" = "cos461-g7-g7c6d1".toList := by
  decide +kernel

end Harness

end Twinet
