import Twinet.Agent.Holds

/-!
# One Container Name for Two Devices

The name of a container is its lab, its system and its device with dashes between, and
each of them may have dashes of its own. So a name can be read in two ways when the
lab of one device goes on, after a dash, with what the name of the other says next. And a
device can be called what the name of another is cut off to.

## Main definitions

* `NamedDevice`: A device a manifest may declare.
* `NamedDevice.container`: Its container.
* `Continues`, `CutTo`: The two ways for one name to be that of two devices.

## Theorems

* `value_eq_iff`: When two names are the same before they are cut off.
* `container_unique_iff`: When two devices have two names.
-/

namespace Twinet

namespace Agent

open List

/-- A lab name has small letters and digits, and dashes but in front. -/
def acceptedLab : Text → Bool
  | [] => false
  | c :: cs => labChar c && cs.all fun c => labChar c || c = '-'
where
  labChar (c : Char) : Bool := ('a' ≤ c && c ≤ 'z') || ('0' ≤ c && c ≤ '9')

/-- A device of a manifest, or a service, whose system is 0. Of the names of devices nothing
    is required. -/
structure NamedDevice where
  lab : Text
  asn : Nat
  name : Text
  accepted : acceptedLab lab = true ∧ asn ≤ 4294967294

section

variable (sha256 : Text → List UInt8) (toLower : Text → Text)

namespace NamedDevice

variable (d d' : NamedDevice)

/-- What the name says after the lab. -/
def rest : Text := devicePart toLower d.asn d.name

/-- The container name before it is cut off. -/
def value : Text := fullName toLower d.lab d.asn d.name

def container : Text := containerName sha256 toLower d.lab d.asn d.name

/-- The lab of the other goes on with what this one's name says next. -/
def Continues : Prop :=
  ∃ word, d'.lab = d.lab ++ '-' :: word ∧ d.rest toLower = word ++ '-' :: d'.rest toLower

/-- This one is called what the name of the other is cut off to. -/
def CutTo : Prop :=
  (d.value toLower).length ≤ 72 ∧ 72 < (d'.value toLower).length ∧
    d.value toLower =
      keptName (d'.value toLower) ++ '-' :: nameDigest sha256 (d'.value toLower)

end NamedDevice

end

variable {sha256 : Text → List UInt8} {toLower : Text → Text} {d d' : NamedDevice}

namespace NamedDevice

theorem value_eq (d : NamedDevice) (toLower : Text → Text) :
    d.value toLower = containerMark ++ (d.lab ++ '-' :: d.rest toLower) := rfl

theorem container_eq (d : NamedDevice) (sha256 : Text → List UInt8) (toLower : Text → Text) :
    d.container sha256 toLower =
      if (d.value toLower).length ≤ 72 then d.value toLower
      else keptName (d.value toLower) ++ '-' :: nameDigest sha256 (d.value toLower) := rfl

theorem isAlphanum_of_mem_systemPart {asn : Nat} {c : Char} (hc : c ∈ systemPart asn) :
    c.isAlphanum = true := by
  unfold systemPart at hc
  split_ifs at hc
  · exact all_eq_true.mp (by decide) c hc
  · rcases mem_append.mp hc with hc | hc
    · exact all_eq_true.mp (by decide) c hc
    · exact Numeral.isAlphanum_of_mem_print (by decide) (by decide) hc

theorem systemPart_injective : Function.Injective systemPart := by
  intro asn asn' h
  unfold systemPart at h
  split_ifs at h with hzero hzero' hzero'
  · rw [hzero, hzero']
  · cases h
  · cases h
  · exact Numeral.print_injective (by decide) (by decide) (append_cancel_left h)

theorem rest_eq_iff : d.rest toLower = d'.rest toLower ↔
    d.asn = d'.asn ∧ toLower d.name = toLower d'.name := by
  constructor
  · intro h
    obtain ⟨hpart, hname⟩ := Numeral.append_stop_inj (fun _ => isAlphanum_of_mem_systemPart)
      (fun _ => isAlphanum_of_mem_systemPart) (by simp) (by simp) h
    exact ⟨systemPart_injective hpart, (cons.inj hname).2⟩
  · rintro ⟨hasn, hname⟩
    rw [rest, rest, devicePart, devicePart, hasn, hname]

/-- Two values agree also where one lab goes on into the other name. -/
theorem value_eq_iff : d.value toLower = d'.value toLower ↔
    (d.lab = d'.lab ∧ d.rest toLower = d'.rest toLower) ∨
      d.Continues toLower d' ∨ d'.Continues toLower d := by
  constructor
  · intro h
    rw [value_eq, value_eq, append_cancel_left_eq, append_eq_append_iff] at h
    rcases h with ⟨word, hlab, h⟩ | ⟨word, hlab, h⟩
    · cases word with
      | nil => exact .inl ⟨by simp [hlab], (cons.inj h).2⟩
      | cons c word =>
        obtain ⟨rfl, hrest⟩ := cons.inj h
        exact .inr (.inl ⟨word, hlab, hrest⟩)
    · cases word with
      | nil => exact .inl ⟨by simp [hlab], (cons.inj h).2.symm⟩
      | cons c word =>
        obtain ⟨rfl, hrest⟩ := cons.inj h
        exact .inr (.inr ⟨word, hlab, hrest⟩)
  · rintro (⟨hlab, hrest⟩ | ⟨word, hlab, hrest⟩ | ⟨word, hlab, hrest⟩) <;>
      simp [value_eq, hlab, hrest]

theorem Continues.lab_ne (h : d.Continues toLower d') : d.lab ≠ d'.lab := by
  obtain ⟨word, hlab, -⟩ := h
  intro heq
  have hlength := congrArg length (heq.trans hlab)
  simp at hlength

/-- What two names end in that are cut off, there being no dash in a digest. -/
theorem digest_of_cut {kept kept' value value' : Text}
    (h : kept ++ '-' :: nameDigest sha256 value = kept' ++ '-' :: nameDigest sha256 value') :
    nameDigest sha256 value = nameDigest sha256 value' := by
  have halnum : ∀ value, ∀ c ∈ (nameDigest sha256 value).reverse, c.isAlphanum = true := by
    intro value c hc
    obtain ⟨b, -, hb⟩ := mem_flatMap.mp (mem_reverse.mp hc)
    exact Numeral.isAlphanum_of_mem_hexByte hb
  have hback := congrArg reverse h
  simp only [reverse_append, reverse_cons, append_assoc, singleton_append] at hback
  exact reverse_injective (Numeral.append_stop_inj (halnum value) (halnum value') (by simp)
    (by simp) hback).1

theorem CutTo.value_ne (h : d.CutTo sha256 toLower d') :
    d.value toLower ≠ d'.value toLower := by
  intro hsame
  have hshort := h.1
  rw [hsame] at hshort
  exact absurd h.2.1 (not_lt.mpr hshort)

section

-- the digest tells the two apart
variable (hdigest : nameDigest sha256 (d.value toLower) = nameDigest sha256 (d'.value toLower) →
    d.value toLower = d'.value toLower)
include hdigest

theorem container_eq_iff :
    d.container sha256 toLower = d'.container sha256 toLower ↔
      d.value toLower = d'.value toLower ∨
        d.CutTo sha256 toLower d' ∨ d'.CutTo sha256 toLower d := by
  constructor
  · intro h
    by_cases hshort : (d.value toLower).length ≤ 72 <;>
      by_cases hshort' : (d'.value toLower).length ≤ 72
    · rw [container_eq, container_eq, if_pos hshort, if_pos hshort'] at h
      exact .inl h
    · rw [container_eq, container_eq, if_pos hshort, if_neg hshort'] at h
      exact .inr (.inl ⟨hshort, not_le.mp hshort', h⟩)
    · rw [container_eq, container_eq, if_neg hshort, if_pos hshort'] at h
      exact .inr (.inr ⟨hshort', not_le.mp hshort, h.symm⟩)
    · rw [container_eq, container_eq, if_neg hshort, if_neg hshort'] at h
      exact .inl (hdigest (digest_of_cut h))
  · rintro (h | ⟨hshort, hlong, h⟩ | ⟨hshort, hlong, h⟩)
    · rw [container_eq, container_eq, h]
    · rw [container_eq, container_eq, if_pos hshort, if_neg (not_le.mpr hlong), h]
    · rw [container_eq, container_eq, if_neg (not_le.mpr hlong), if_pos hshort, h]

/-- Two devices of one container name are of one lab and one device, up to the case of its
    letters, unless the lab of one continues that of the other or one is called what the
    other is cut off to. -/
theorem container_unique_iff :
    (d.container sha256 toLower = d'.container sha256 toLower →
      d.lab = d'.lab ∧ d.asn = d'.asn ∧ toLower d.name = toLower d'.name) ↔
    ¬ (d.Continues toLower d' ∨ d'.Continues toLower d ∨
      d.CutTo sha256 toLower d' ∨ d'.CutTo sha256 toLower d) := by
  rw [← rest_eq_iff, container_eq_iff hdigest, value_eq_iff]
  constructor
  · intro h hmixed
    have hsame := h (by tauto)
    rcases hmixed with hc | hc | hc | hc
    · exact hc.lab_ne hsame.1
    · exact hc.lab_ne hsame.1.symm
    · exact hc.value_ne (value_eq_iff.mpr (.inl hsame))
    · exact hc.value_ne (value_eq_iff.mpr (.inl hsame)).symm
  · tauto

end

/-- A digest that is the length of the text. -/
def lengthDigest (value : Text) : List UInt8 := [value.length.toUInt8]

/-- The same router in two labs, one of which has a name so long that the container name is
    cut off. -/
theorem container_unique_routers :
    let d : NamedDevice := ⟨"cos461".toList, 3, "r1".toList, by decide⟩
    let d' : NamedDevice :=
      ⟨"cos461-advanced-computer-networks-autumn-semester-evening-section".toList, 3,
        "r1".toList, by decide⟩
    72 < (d'.value id).length ∧
      ¬ (d.Continues id d' ∨ d'.Continues id d ∨ d.CutTo lengthDigest id d' ∨
        d'.CutTo lengthDigest id d) := by
  intro d d'
  refine ⟨by decide +kernel, (container_unique_iff fun h => ?_).mp fun h => ?_⟩
  · exact absurd h (by decide +kernel)
  · exact absurd h (by decide +kernel)

/-- A router of lab `a` and one of lab `a-as1-b`. -/
theorem two_labs_one_name :
    let d : NamedDevice := ⟨"a".toList, 1, "b-as2-c".toList, by decide⟩
    let d' : NamedDevice := ⟨"a-as1-b".toList, 2, "c".toList, by decide⟩
    d.lab ≠ d'.lab ∧ ∀ sha256, d.container sha256 id = d'.container sha256 id :=
  ⟨by decide, fun _ => rfl⟩

end NamedDevice

end Agent

end Twinet
