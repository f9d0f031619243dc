import Twinet.Lib.Numeral

/-!
# Holds and the Containers Under Them

A hold keeps everybody but its holder out of a lab. An exec or attach names a
container and not a lab, so the agent finds the lab in the container's name: of
the labs it hosts it takes the longest whose name the container's name goes on
with a dash after.

A name that is too long is cut off and ends in a digest. What is cut off can be
part of the lab's name, and then no lab is found. And what follows the lab's name
can itself be part of another lab's name, and then that lab is found.

How letters are put in lower case is a parameter, so names need not be ASCII.

## Main definitions

* `containerName`: The container of a device.
* `labOfContainer`: The lab a container is taken to belong to.
* `refuseIfHeldByAnother`: Whether an exec or attach is let through.
* `applyHold`: Taking, renewing and dropping a hold.
* `Attributed`: What the name of a container has to keep to itself.

## Theorems

* `labOfContainer_eq_iff`: When a container is found to belong to its lab.
* `held_container_refused_iff`: When holding a lab keeps others out of a device.
* `taken_hold_refuses`: A hold keeps others out whatever holds they ask for.
-/

namespace Twinet

namespace Agent

open List Function Nat

/-- A text as the list of its bytes, each the character of its number. -/
abbrev Text := List Char

section Names

variable (sha256 : Text → List UInt8) (toLower : Text → Text)

def containerMark : Text := "twinet-".toList

def systemPart (asn : Nat) : Text :=
  if asn = 0 then "svc".toList else "as".toList ++ Numeral.print 10 asn

/-- What the container name of a device says after the lab. -/
def devicePart (asn : Nat) (name : Text) : Text := systemPart asn ++ '-' :: toLower name

/-- The container name of a device, before it is cut off. -/
def fullName (lab : Text) (asn : Nat) (name : Text) : Text :=
  containerMark ++ (lab ++ '-' :: devicePart toLower asn name)

/-- A list without the characters at its end that a name may not end in. -/
def trimRight (cs : Text) : Text :=
  (cs.reverse.dropWhile fun c => c = '.' || c = '_' || c = '-').reverse

/-- What is left of a name that is cut off. -/
def keptName (value : Text) : Text := trimRight (value.take (72 - 13))

/-- The digest that ends a name that is cut off. -/
def nameDigest (value : Text) : Text := ((sha256 value).take 6).flatMap Numeral.hexByte

/-- The container of a device. A name of more than 72 bytes is cut off, and ends
    in the first six bytes of a digest of all of it. -/
def containerName (lab : Text) (asn : Nat) (name : Text) : Text :=
  let value := fullName toLower lab asn name
  if value.length ≤ 72 then value else keptName value ++ '-' :: nameDigest sha256 value

end Names

/-- The better of two labs a name could belong to. -/
def longerLab (rest best lab : Text) : Text :=
  if (lab ++ ['-']).isPrefixOf rest && best.length < lab.length then lab else best

/-- The hosted lab a container is taken to belong to, or nothing. -/
def labOfContainer (current : List Text) (name : Text) : Text :=
  if containerMark.isPrefixOf name then
    current.foldl (longerLab (name.drop containerMark.length)) []
  else []

structure Hold where
  holder : Text
  token : Text
  untilAt : Nat
deriving DecidableEq, Repr

/-- The part of the agent that keeps holds. -/
structure HoldServer where
  now : Nat
  current : List Text
  holds : Text → Option Hold

/-- Why a request is refused: the lab that is held, and by whom. -/
structure Refusal where
  lab : Text
  holder : Text
deriving DecidableEq, Repr

def HoldServer.setHold (s : HoldServer) (lab : Text) (h : Option Hold) : HoldServer :=
  { s with holds := update s.holds lab h }

/-- Whether an exec or attach is let through. A hold that has run out is
    forgotten. -/
def refuseIfHeldByAnother (s : HoldServer) (container token : Text) :
    HoldServer × Option Refusal :=
  let lab := labOfContainer s.current container
  if lab = [] then (s, none)
  else
    match s.holds lab with
    | none => (s, none)
    | some h =>
      if h.untilAt < s.now then (s.setHold lab none, none)
      else if h.token = [] || h.token = token then (s, none)
      else (s, some { lab := lab, holder := h.holder })

structure HoldRequest where
  lab : Text
  holder : Text
  seconds : Int
  token : Text

def maxHoldSeconds : Int := 600

inductive HoldAnswer where
  | done
  | conflict (r : Refusal)
  | notSaved
deriving DecidableEq, Repr

/-- Take, renew or drop a hold. Where the hold cannot be saved, the previous one
    is put back. -/
def applyHold (saved : Bool) (s : HoldServer) (req : HoldRequest) : HoldServer × HoldAnswer :=
  let seconds := min req.seconds maxHoldSeconds
  let taken (h : Hold) : Bool :=
    s.now < h.untilAt && h.token ≠ [] && h.token ≠ req.token
  match (s.holds req.lab).filter taken with
  | some h => (s, .conflict { lab := req.lab, holder := h.holder })
  | none =>
    let next : Option Hold :=
      if seconds ≤ 0 then none
      else some { holder := req.holder, token := req.token, untilAt := s.now + seconds.toNat }
    if saved then (s.setHold req.lab next, .done) else (s, .notSaved)

/-- Requests for holds, one after the other. -/
def applyHolds (s : HoldServer) (asked : List (Bool × HoldRequest)) : HoldServer :=
  asked.foldl (fun s r => (applyHold r.1 s r.2).1) s

/-- The lab is held under a token. -/
def HoldServer.Held (s : HoldServer) (lab : Text) (h : Hold) : Prop :=
  s.holds lab = some h ∧ h.token ≠ [] ∧ s.now ≤ h.untilAt

variable {s : HoldServer} {req : HoldRequest}

theorem applyHold_held {s' : HoldServer} (hseconds : 0 < req.seconds) (htoken : req.token ≠ [])
    (h : applyHold true s req = (s', .done)) :
    ∃ hold, s'.Held req.lab hold ∧ s'.now < hold.untilAt ∧ hold.token = req.token ∧
      s'.current = s.current := by
  simp only [applyHold] at h
  split at h
  · simp at h
  · have hpos : ¬ min req.seconds maxHoldSeconds ≤ 0 := by
      unfold maxHoldSeconds
      omega
    have hlater : s.now < s.now + (min req.seconds maxHoldSeconds).toNat := by omega
    simp only [hpos, if_false, if_true, Prod.mk.injEq] at h
    rw [← h.1]
    exact ⟨_, ⟨update_self .., htoken, le_of_lt hlater⟩, hlater, rfl, rfl⟩

theorem holds_setHold_of_ne {lab : Text} (h : Option Hold) (hne : req.lab ≠ lab) :
    (s.setHold req.lab h).holds lab = s.holds lab := update_of_ne hne.symm _ _

/-- A request for a hold changes nothing about a lab that is held under another
    token, nor about any lab but its own. -/
theorem held_applyHold {lab : Text} {hold : Hold} (hheld : s.Held lab hold)
    (hbefore : s.now < hold.untilAt) (saved : Bool)
    (hother : req.lab = lab → req.token ≠ hold.token) :
    (applyHold saved s req).1.Held lab hold ∧ (applyHold saved s req).1.now = s.now ∧
      (applyHold saved s req).1.current = s.current := by
  obtain ⟨hin, htoken, huntil⟩ := id hheld
  by_cases hlab : req.lab = lab
  · have hconflict : applyHold saved s req =
        (s, .conflict { lab := req.lab, holder := hold.holder }) := by
      simp [applyHold, hlab, hin, Option.filter, hbefore, htoken, (hother hlab).symm]
    rw [hconflict]
    exact ⟨hheld, rfl, rfl⟩
  · fun_cases applyHold saved s req with
    | case2 => exact ⟨⟨(holds_setHold_of_ne _ hlab).trans hin, htoken, huntil⟩, rfl, rfl⟩
    | _ => exact ⟨hheld, rfl, rfl⟩

theorem held_applyHolds {lab : Text} {hold : Hold} {asked : List (Bool × HoldRequest)}
    (hheld : s.Held lab hold) (hbefore : s.now < hold.untilAt)
    (hasked : ∀ r ∈ asked, r.2.lab = lab → r.2.token ≠ hold.token) :
    (applyHolds s asked).Held lab hold ∧ (applyHolds s asked).current = s.current := by
  induction asked generalizing s with
  | nil => exact ⟨hheld, rfl⟩
  | cons r rest ih =>
    obtain ⟨hr, hrest⟩ := forall_mem_cons.mp hasked
    obtain ⟨hstays, hnow, hhosted⟩ := held_applyHold hheld hbefore r.1 hr
    obtain ⟨hheld', hcurrent⟩ := ih hstays (hnow ▸ hbefore) hrest
    exact ⟨hheld', hcurrent.trans hhosted⟩

/-! ### The lab of a container -/

theorem startsWith_iff {xs ys : Text} : xs.isPrefixOf ys = true ↔ xs <+: ys :=
  isPrefixOf_iff_prefix

/-- The name goes on with the lab and a dash after the mark. -/
def Names (name lab : Text) : Prop := containerMark ++ lab ++ ['-'] <+: name

theorem names_append {rest lab : Text} :
    Names (containerMark ++ rest) lab ↔ lab ++ ['-'] <+: rest := by
  rw [Names, append_assoc, prefix_append_right_inj]

theorem Names.eq_of_length {name lab lab' : Text} (h : Names name lab) (h' : Names name lab')
    (hlen : lab.length = lab'.length) : lab = lab' := by
  have heq : containerMark ++ lab ++ ['-'] = containerMark ++ lab' ++ ['-'] :=
    (prefix_of_prefix_length_le h h' (by simp [hlen])).eq_of_length (by simp [hlen])
  simpa using heq

theorem foldl_longerLab (rest : Text) (current : List Text) (best : Text) :
    let found := current.foldl (longerLab rest) best
    (found = best ∨ (found ∈ current ∧ found ++ ['-'] <+: rest)) ∧ best.length ≤ found.length ∧
      ∀ lab ∈ current, lab ++ ['-'] <+: rest → lab.length ≤ found.length := by
  induction current generalizing best with
  | nil => simp
  | cons x current ih =>
    rw [foldl_cons]
    obtain ⟨hfrom, hbest, hall⟩ := ih (longerLab rest best x)
    -- one lab is compared with the longest so far
    have hstep : (longerLab rest best x = best ∨
        (longerLab rest best x = x ∧ x ++ ['-'] <+: rest)) ∧
        best.length ≤ (longerLab rest best x).length ∧
        (x ++ ['-'] <+: rest → x.length ≤ (longerLab rest best x).length) := by
      unfold longerLab
      by_cases hx : x ++ ['-'] <+: rest
      · by_cases hlen : best.length < x.length
        · simp [startsWith_iff.mpr hx, hlen, hx, le_of_lt hlen]
        · simp [hlen, Nat.le_of_not_lt hlen]
      · have hno : (x ++ ['-']).isPrefixOf rest = false := by
          rw [← Bool.not_eq_true, startsWith_iff]
          exact hx
        simp [hno, hx]
    obtain ⟨hwhich, hkeep, hx⟩ := hstep
    refine ⟨?_, le_trans hkeep hbest, fun lab hlab hpre => ?_⟩
    · rcases hfrom with hfrom | ⟨hmem, hpre⟩
      · rcases hwhich with hwhich | ⟨hwhich, hpre⟩
        · exact .inl (hfrom.trans hwhich)
        · exact .inr ⟨by rw [hfrom, hwhich]; exact mem_cons_self, by
            rw [hfrom, hwhich]
            exact hpre⟩
      · exact .inr ⟨mem_cons_of_mem _ hmem, hpre⟩
    · rcases mem_cons.mp hlab with rfl | hlab
      · exact le_trans (hx hpre) hbest
      · exact hall lab hlab hpre

/-- A container is found to belong to a lab if its name goes on with it, and with
    no longer one. -/
theorem labOfContainer_eq_iff {current : List Text} {name lab : Text} (hlab : lab ∈ current)
    (hne : lab ≠ []) :
    labOfContainer current name = lab ↔
      Names name lab ∧ ∀ other ∈ current, Names name other → other.length ≤ lab.length := by
  unfold labOfContainer
  by_cases hmark : containerMark <+: name
  · obtain ⟨rest, rfl⟩ := hmark
    rw [if_pos (startsWith_iff.mpr (prefix_append _ _)), drop_left]
    simp only [names_append]
    obtain ⟨hfrom, -, hall⟩ := foldl_longerLab rest current []
    constructor
    · intro hfound
      rw [hfound] at hfrom hall
      rcases hfrom with hnil | ⟨-, hpre⟩
      · exact absurd hnil hne
      · exact ⟨hpre, hall⟩
    · rintro ⟨hpre, hlongest⟩
      have hle := hall lab hlab hpre
      rcases hfrom with hnil | ⟨hmem, hpre'⟩
      · rw [hnil] at hle
        exact absurd (eq_nil_of_length_eq_zero (le_zero.mp hle)) hne
      · refine Names.eq_of_length (names_append.mpr hpre') (names_append.mpr hpre) ?_
        exact le_antisymm (hlongest _ hmem hpre') hle
  · rw [if_neg (by rwa [startsWith_iff])]
    refine iff_of_false (Ne.symm hne) fun h => hmark ?_
    exact ((prefix_append _ _).trans (prefix_append _ _)).trans h.1

/-! ### The container of a device -/

section Attributed

variable {lab : Text} {current : List Text}

/-- The name of a device's container is not cut off before the end of the lab. -/
def KeepsLab (toLower : Text → Text) (lab : Text) (asn : Nat) (name : Text) : Prop :=
  (fullName toLower lab asn name).length ≤ 72 ∨
    (containerMark ++ lab).length ≤ (keptName (fullName toLower lab asn name)).length

instance decidableKeepsLab (toLower : Text → Text) (lab : Text) (asn : Nat) (name : Text) :
    Decidable (KeepsLab toLower lab asn name) :=
  inferInstanceAs (Decidable (_ ∨ _))

/-- What the container name says after the lab and a dash. -/
def afterLab (sha256 : Text → List UInt8) (toLower : Text → Text) (lab : Text) (asn : Nat)
    (name : Text) : Text :=
  (containerName sha256 toLower lab asn name).drop (containerMark ++ lab ++ ['-']).length

/-- The container name of a device keeps its lab, and no hosted lab is named by
    the lab, a dash and what the container name goes on with up to a dash. -/
def Attributed (sha256 : Text → List UInt8) (toLower : Text → Text) (current : List Text)
    (lab : Text) (asn : Nat) (name : Text) : Prop :=
  KeepsLab toLower lab asn name ∧
    ∀ word, lab ++ '-' :: word ∈ current →
      ¬ word ++ ['-'] <+: afterLab sha256 toLower lab asn name

theorem not_mem_hexByte (b : UInt8) : '-' ∉ Numeral.hexByte b := fun h =>
  absurd (Numeral.isAlphanum_of_mem_hexByte h) (by decide)

theorem keptName_prefix_of (value : Text) : keptName value <+: value := by
  refine IsPrefix.trans ?_ <| take_prefix (72 - 13) value
  rw [keptName, trimRight, ← reverse_suffix, reverse_reverse]
  exact dropWhile_suffix _

theorem names_kept_iff {value kept tail : Text} (hvalue : containerMark ++ lab ++ ['-'] <+: value)
    (hkept : kept <+: value) (htail : '-' ∉ tail) :
    Names (kept ++ '-' :: tail) lab ↔ (containerMark ++ lab).length ≤ kept.length := by
  constructor
  · intro hnames
    by_contra hlt
    -- The dash after the lab would be in the digest.
    obtain ⟨us, hus⟩ := hnames
    have hat : (kept ++ '-' :: tail)[(containerMark ++ lab).length]? = some '-' := by
      rw [← hus, append_assoc, getElem?_append_right (le_refl _)]
      simp
    rw [getElem?_append_right (by omega)] at hat
    obtain ⟨k, hk⟩ : ∃ k, (containerMark ++ lab).length - kept.length = k + 1 :=
      ⟨_, (succ_pred_eq_of_pos (by omega)).symm⟩
    rw [hk, getElem?_cons_succ] at hat
    exact htail (mem_of_getElem? hat)
  · intro hle
    have hlab : containerMark ++ lab <+: kept :=
      prefix_of_prefix_length_le ((prefix_append _ _).trans hvalue) hkept hle
    obtain ⟨us, rfl⟩ := hlab
    cases us with
    | nil => exact ⟨tail, by simp⟩
    | cons u us =>
      obtain ⟨vs, rfl⟩ := hkept
      rw [append_assoc (containerMark ++ lab), prefix_append_right_inj] at hvalue
      simp only [cons_append, cons_prefix_cons] at hvalue
      obtain ⟨rfl, -⟩ := hvalue
      exact ⟨us ++ '-' :: tail, by simp⟩

theorem names_containerName_iff (sha256 : Text → List UInt8) (toLower : Text → Text)
    (lab : Text) (asn : Nat) (name : Text) :
    Names (containerName sha256 toLower lab asn name) lab ↔ KeepsLab toLower lab asn name := by
  have hvalue : containerMark ++ lab ++ ['-'] <+: fullName toLower lab asn name :=
    ⟨devicePart toLower asn name, by simp [fullName]⟩
  unfold containerName KeepsLab
  by_cases hlen : (fullName toLower lab asn name).length ≤ 72
  · simp only [hlen, if_true, true_or, iff_true]
    exact hvalue
  · simp only [hlen, if_false, false_or]
    refine names_kept_iff hvalue (keptName_prefix_of _) ?_
    rw [nameDigest, mem_flatMap]
    rintro ⟨b, -, hb⟩
    exact not_mem_hexByte b hb

theorem longer_names_iff {value : Text} (hlab : Names value lab) (other : Text) :
    (Names value other ∧ lab.length < other.length) ↔
      ∃ word, other = lab ++ '-' :: word ∧
        word ++ ['-'] <+: value.drop (containerMark ++ lab ++ ['-']).length := by
  obtain ⟨rest, rfl⟩ := hlab
  rw [drop_left]
  constructor
  · rintro ⟨hother, hlen⟩
    have hle : (containerMark ++ lab ++ ['-']).length ≤ (containerMark ++ other).length := by
      simp only [length_append, length_cons, length_nil]
      omega
    have hin : containerMark ++ lab ++ ['-'] <+: containerMark ++ other :=
      prefix_of_prefix_length_le (prefix_append _ rest)
        ((prefix_append _ ['-']).trans hother) hle
    rw [append_assoc, prefix_append_right_inj] at hin
    obtain ⟨word, rfl⟩ := hin
    refine ⟨word, by simp, ?_⟩
    rw [Names, show containerMark ++ (lab ++ ['-'] ++ word) ++ ['-'] =
      containerMark ++ lab ++ ['-'] ++ (word ++ ['-']) by simp,
      prefix_append_right_inj] at hother
    exact hother
  · rintro ⟨word, rfl, hword⟩
    refine ⟨?_, by simp⟩
    rw [Names, show containerMark ++ (lab ++ '-' :: word) ++ ['-'] =
      containerMark ++ lab ++ ['-'] ++ (word ++ ['-']) by simp, prefix_append_right_inj]
    exact hword

theorem labOfContainer_containerName_iff (sha256 : Text → List UInt8) (toLower : Text → Text)
    (hlab : lab ∈ current) (hne : lab ≠ []) (asn : Nat) (name : Text) :
    labOfContainer current (containerName sha256 toLower lab asn name) = lab ↔
      Attributed sha256 toLower current lab asn name := by
  rw [labOfContainer_eq_iff hlab hne, Attributed, names_containerName_iff]
  refine and_congr_right fun hkeeps => ?_
  have hlonger :=
    longer_names_iff ((names_containerName_iff sha256 toLower lab asn name).mpr hkeeps)
  constructor
  · intro hlongest word hin hword
    obtain ⟨hnames, hlen⟩ := (hlonger (lab ++ '-' :: word)).mpr ⟨word, rfl, hword⟩
    exact absurd (hlongest _ hin hnames) (by omega)
  · intro hnone other hin hnames
    by_contra hlen
    obtain ⟨word, rfl, hword⟩ := (hlonger other).mp ⟨hnames, by omega⟩
    exact hnone word hin hword

end Attributed

theorem refused_of_held {container token : Text} {h : Hold}
    (hlab : labOfContainer s.current container ≠ [])
    (hheld : s.Held (labOfContainer s.current container) h) (hother : token ≠ h.token) :
    (refuseIfHeldByAnother s container token).2 =
      some { lab := labOfContainer s.current container, holder := h.holder } := by
  obtain ⟨hin, htoken, huntil⟩ := hheld
  simp [refuseIfHeldByAnother, if_neg hlab, hin, if_neg (not_lt.mpr huntil), htoken, hother.symm]

theorem not_refused_of_free {container token : Text}
    (hfree : s.holds (labOfContainer s.current container) = none) :
    (refuseIfHeldByAnother s container token).2 = none := by
  unfold refuseIfHeldByAnother
  by_cases hlab : labOfContainer s.current container = []
  · simp [hlab]
  · simp [hlab, hfree]

theorem refused_of_attributed {sha256 : Text → List UInt8} {toLower : Text → Text}
    {lab name token : Text} {asn : Nat} {h : Hold}
    (hattributed : Attributed sha256 toLower s.current lab asn name) (hlab : lab ∈ s.current)
    (hne : lab ≠ []) (hheld : s.Held lab h) (hother : token ≠ h.token) :
    (refuseIfHeldByAnother s (containerName sha256 toLower lab asn name) token).2 ≠ none := by
  have hlabel := (labOfContainer_containerName_iff sha256 toLower hlab hne asn name).mpr
    hattributed
  rw [refused_of_held (h := h) (by rwa [hlabel]) (by rwa [hlabel]) hother]
  simp

/-- A device's container is found to belong to its lab exactly if it is
    attributed, and exactly then a hold of the lab keeps everybody without its
    token out of the device. -/
theorem held_container_refused_iff (sha256 : Text → List UInt8) (toLower : Text → Text)
    (current : List Text) (lab : Text) (hlab : lab ∈ current) (hne : lab ≠ []) (asn : Nat)
    (name : Text) :
    (labOfContainer current (containerName sha256 toLower lab asn name) = lab ↔
      Attributed sha256 toLower current lab asn name) ∧
    ((∀ s : HoldServer, s.current = current → ∀ h, s.Held lab h → ∀ token, token ≠ h.token →
        (refuseIfHeldByAnother s (containerName sha256 toLower lab asn name) token).2 ≠ none) ↔
      Attributed sha256 toLower current lab asn name) := by
  have hfound := labOfContainer_containerName_iff sha256 toLower hlab hne asn name
  refine ⟨hfound, fun hrefused => hfound.mp ?_, ?_⟩
  · -- A server on which nothing but this lab is held.
    by_contra hother
    let h : Hold := { holder := [], token := ['t'], untilAt := 0 }
    let s : HoldServer :=
      { now := 0, current := current, holds := update (fun _ => none) lab (some h) }
    have hheld : s.Held lab h := ⟨by simp [s], by simp [h], le_refl _⟩
    refine hrefused s rfl h hheld [] (by simp [h]) (not_refused_of_free ?_)
    simp [s, update_of_ne hother]
  · rintro hattributed s rfl h hheld token hother
    exact refused_of_attributed hattributed hlab hne hheld hother

/-- Once a hold is taken, whatever holds are asked for under other tokens, here
    or for other labs, everybody without its token is kept out of the attributed
    devices of the lab until it runs out. -/
theorem taken_hold_refuses {sha256 : Text → List UInt8} {toLower : Text → Text} {asn : Nat}
    {name token : Text} {s' : HoldServer} {asked : List (Bool × HoldRequest)}
    (hlab : req.lab ∈ s.current) (hne : req.lab ≠ [])
    (hattributed : Attributed sha256 toLower s.current req.lab asn name)
    (hseconds : 0 < req.seconds) (htoken : req.token ≠ [])
    (htaken : applyHold true s req = (s', .done))
    (hasked : ∀ r ∈ asked, r.2.lab = req.lab → r.2.token ≠ req.token) (hother : token ≠ req.token) :
    (refuseIfHeldByAnother (applyHolds s' asked)
      (containerName sha256 toLower req.lab asn name) token).2 ≠ none := by
  obtain ⟨hold, hheld, hbefore, hsame, hcurrent⟩ := applyHold_held hseconds htoken htaken
  obtain ⟨hheld', hhosted⟩ := held_applyHolds hheld hbefore (hsame ▸ hasked)
  rw [← hhosted.trans hcurrent] at hattributed hlab
  exact refused_of_attributed hattributed hlab hne hheld' (hsame ▸ hother)

/-! ### Two nodes -/

def asciiLower (text : Text) : Text := text.map Char.toLower

/-- Only the class lab is held, by its grader. -/
def gradedNode (current : List Text) : HoldServer :=
  let h : Hold := { holder := "grade".toList, token := "a7".toList, untilAt := 60 }
  { now := 1, current := current
    holds := fun lab => if lab = "cos461".toList then some h else none }

/-- Beside a harness of the class lab, a device of the class lab is found to
    belong to it, and a student is kept out. -/
theorem held_device_refused :
    labOfContainer ["cos461".toList, "cos461-g3-groupx".toList]
        (containerName (fun _ => []) asciiLower "cos461".toList 3 "R1".toList) = "cos461".toList ∧
      (refuseIfHeldByAnother (gradedNode ["cos461".toList, "cos461-g3-groupx".toList])
        (containerName (fun _ => []) asciiLower "cos461".toList 3 "R1".toList) []).2 ≠ none := by
  have hattributed : Attributed (fun _ => []) asciiLower
      ["cos461".toList, "cos461-g3-groupx".toList] "cos461".toList 3 "R1".toList := by
    refine ⟨by decide +kernel, fun word hin hword => ?_⟩
    have hword' : word = "g3-groupx".toList := by
      simp only [mem_cons, not_mem_nil, or_false] at hin
      rcases hin with hin | hin
      · nomatch congrArg length hin
      · have hwords : "cos461-".toList ++ word = "cos461-".toList ++ "g3-groupx".toList := by
          simpa using hin
        exact append_cancel_left hwords
    rw [hword', ← startsWith_iff] at hword
    exact absurd hword (by decide +kernel)
  have hthm := held_container_refused_iff (fun _ => []) asciiLower
    ["cos461".toList, "cos461-g3-groupx".toList] "cos461".toList (by decide) (by decide) 3
    "R1".toList
  refine ⟨hthm.1.mpr hattributed, hthm.2.mpr hattributed _ rfl
    { holder := "grade".toList, token := "a7".toList, untilAt := 60 } ⟨?_, ?_, ?_⟩ [] ?_⟩
  · rfl
  · decide
  · decide
  · decide

/-- Beside a lab called after AS 3 of the class lab, the devices of that AS are
    found to belong to the other lab, and a student is let in while the class lab
    is graded. -/
theorem other_lab_found :
    let current := ["cos461".toList, "cos461-as3".toList]
    let container := containerName (fun _ => []) asciiLower "cos461".toList 3 "R1".toList
    container = "twinet-cos461-as3-r1".toList ∧
      labOfContainer current container = "cos461-as3".toList ∧
      ((gradedNode current).holds "cos461".toList).isSome = true ∧
      (refuseIfHeldByAnother (gradedNode current) container []).2 = none := by
  decide +kernel

end Agent

end Twinet
