import Mathlib.Tactic.Ring

/-!
# Carving Prefixes

The helpers of the templates that take the subnets and the hosts of a prefix by their
number. They compute with integers of any size in the space of sixteen bytes, where an
address of the older family is one of a range of the newer.

A number is checked to be small enough. It is not checked to be nonnegative, so a template
can walk out of its prefix at the lower end. What a negative sum leaves is the bytes of its
absolute value.

## Main definitions

* `cidrSubnet`, `cidrHost`: A subnet and a host of a prefix by number.
* `Pfx.Contains`: The addresses of a prefix.
* `Sound`: What is returned is in its place.

## Theorems

* `carve_sound_iff`: The results stay in their prefix and apart exactly if no number is
  negative.
-/

namespace Twinet

namespace Ipam

open Int

/-- The family and the sixteen bytes of an address. -/
structure Addr where
  is4 : Bool
  value : Nat
deriving DecidableEq, Repr

/-- Where the older family is found among the sixteen bytes. -/
def mapped : Nat := 0xffff * 2 ^ 32

/-- An address that is written in sixteen bytes. -/
def Addr.Valid (a : Addr) : Prop :=
  a.value < 2 ^ 128 ∧ (a.is4 = true → mapped ≤ a.value ∧ a.value < mapped + 2 ^ 32)
deriving Decidable

def Addr.bitLen (a : Addr) : Nat := if a.is4 then 32 else 128

structure Pfx where
  addr : Addr
  bits : Nat
deriving DecidableEq, Repr

/-- The number of bits that are free. -/
def Pfx.host (p : Pfx) : Nat := p.addr.bitLen - p.bits

/-- A prefix as it is parsed and masked. -/
structure Base extends Pfx where
  valid : addr.Valid
  short : bits ≤ addr.bitLen
  masked : 2 ^ toPfx.host ∣ addr.value

/-- The address of the last sixteen bytes of a number, by its absolute value. -/
def bigToAddr (n : Int) (is4 : Bool) : Addr :=
  let value := n.natAbs % 2 ^ 128
  ⟨is4 && (mapped ≤ value && value < mapped + 2 ^ 32), value⟩

/-- Why there is no such part of a prefix. -/
inductive CarveError where
  | lengthOutOfRange (newBits : Int)
  | exceedsSubnets (index available newBits : Int)
  | doesNotFit (index : Int)
deriving DecidableEq, Repr

variable (p : Base)

def cidrSubnet (index newBits : Int) : Except CarveError Pfx :=
  if newBits < p.bits ∨ p.addr.bitLen < newBits then .error (.lengthOutOfRange newBits)
  else
    let shift := p.addr.bitLen - newBits.toNat
    let maxIdx := 2 ^ (newBits.toNat - p.bits)
    if maxIdx ≤ index then .error (.exceedsSubnets index maxIdx newBits)
    else .ok ⟨bigToAddr (p.addr.value + index * 2 ^ shift) p.addr.is4, newBits.toNat⟩

def cidrHost (index : Int) : Except CarveError Pfx :=
  if 2 ^ p.host ≤ index then .error (.doesNotFit index)
  else .ok ⟨bigToAddr (p.addr.value + index) p.addr.is4, p.bits⟩

/-- The addresses of a prefix. -/
def Pfx.Contains (p : Pfx) (a : Addr) : Prop :=
  a.is4 = p.addr.is4 ∧ a.value / 2 ^ p.host = p.addr.value / 2 ^ p.host
deriving Decidable

/-- Everything the helpers return for numbers from a bound on is in its place. -/
structure Sound (p : Base) (lower : Int) : Prop where
  subnet : ∀ newBits i q, lower ≤ i → cidrSubnet p i newBits = .ok q →
    (q.bits : Int) = newBits ∧ ∀ a, q.Contains a → p.Contains a
  apart : ∀ newBits i j q q', lower ≤ i → lower ≤ j → i ≠ j →
    cidrSubnet p i newBits = .ok q → cidrSubnet p j newBits = .ok q' →
    ∀ a, ¬ (q.Contains a ∧ q'.Contains a)
  host : ∀ i q, lower ≤ i → cidrHost p i = .ok q → p.Contains q.addr

theorem Sound.mono {p : Base} {lower lower' : Int} (h : Sound p lower) (hle : lower ≤ lower') :
    Sound p lower' where
  subnet newBits i q hi := h.subnet newBits i q (hle.trans hi)
  apart newBits i j q q' hi hj := h.apart newBits i j q q' (hle.trans hi) (hle.trans hj)
  host i q hi := h.host i q (hle.trans hi)

/-! ### Numbers that are not negative -/

/-- The addresses of a prefix end within those of its family. -/
theorem Base.add_le :
    p.addr.value + 2 ^ p.host ≤ if p.addr.is4 then mapped + 2 ^ 32 else 2 ^ 128 := by
  have hhost : p.host ≤ p.addr.bitLen := Nat.sub_le _ _
  -- the end of the family is a multiple of the prefix's size
  refine Nat.le_of_lt_add_of_dvd (n := 2 ^ p.host) (Nat.add_lt_add_right ?_ _)
    (Nat.dvd_add p.masked (dvd_refl _)) ?_
  · split
    · next h => exact (p.valid.2 h).2
    · exact p.valid.1
  · unfold Addr.bitLen at hhost
    split
    · next h =>
      rw [if_pos h] at hhost
      exact (pow_dvd_pow 2 hhost).trans (by decide)
    · next h =>
      rw [if_neg h] at hhost
      exact pow_dvd_pow 2 hhost

/-- An offset within the prefix is the offset of the address. -/
theorem bigToAddr_add {k : Nat} (hk : k < 2 ^ p.host) :
    bigToAddr (p.addr.value + k) p.addr.is4 = ⟨p.addr.is4, p.addr.value + k⟩ := by
  have hend := p.add_le
  have hlow := p.valid.2
  have hsmall : p.addr.value + k < 2 ^ 128 := by
    unfold mapped at hend
    split at hend <;> omega
  have habs : ((p.addr.value : Int) + k).natAbs % 2 ^ 128 = p.addr.value + k := by
    rw [Nat.mod_eq_of_lt] <;> omega
  unfold bigToAddr
  rw [habs, Addr.mk.injEq]
  refine ⟨?_, rfl⟩
  cases h : p.addr.is4 with
  | false => rfl
  | true =>
    rw [if_pos h] at hend
    have := hlow h
    simp only [Bool.true_and, Bool.and_eq_true, decide_eq_true_eq]
    omega

/-- The results of `cidrSubnet`. -/
theorem cidrSubnet_some {p : Base} {newBits i : Int} {q : Pfx}
    (h : cidrSubnet p i newBits = .ok q) :
    ∃ m : Nat, newBits = p.bits + m ∧ m ≤ p.host ∧ i < 2 ^ m ∧
      q = ⟨bigToAddr (p.addr.value + i * 2 ^ (p.host - m)) p.addr.is4, p.bits + m⟩ := by
  unfold cidrSubnet at h
  split at h
  · cases h
  · next hlen =>
    obtain ⟨m, rfl⟩ := le.dest (not_lt.1 (not_or.1 hlen).1)
    have htop : p.bits + m ≤ p.addr.bitLen := by omega
    have hnat : ((p.bits : Int) + m).toNat = p.bits + m := by omega
    have hshift : p.addr.bitLen - (p.bits + m) = p.host - m := by
      unfold Pfx.host
      omega
    simp only [hnat, Nat.add_sub_cancel_left, hshift] at h
    split at h
    · cases h
    · next hi =>
      exact ⟨m, rfl, by unfold Pfx.host; omega, not_le.1 hi, (Except.ok.inj h).symm⟩

/-- The addresses of a subnet whose number is not negative are those with the number after
    the bits of the prefix. -/
theorem contains_subnet {p : Base} {m j : Nat} {a : Addr} (hm : m ≤ p.host) (hj : j < 2 ^ m) :
    Pfx.Contains
        ⟨bigToAddr (p.addr.value + (j : Int) * 2 ^ (p.host - m)) p.addr.is4, p.bits + m⟩ a ↔
      a.is4 = p.addr.is4 ∧
        a.value / 2 ^ (p.host - m) = 2 ^ m * (p.addr.value / 2 ^ p.host) + j := by
  have hsize : 2 ^ p.host = 2 ^ m * 2 ^ (p.host - m) := by
    rw [← pow_add, Nat.add_sub_cancel' hm]
  have hk : j * 2 ^ (p.host - m) < 2 ^ p.host :=
    hsize ▸ mul_lt_mul_of_pos_right hj (Nat.two_pow_pos _)
  have haddr := bigToAddr_add p hk
  push_cast at haddr
  have hhost : Pfx.host ⟨⟨p.addr.is4, p.addr.value + j * 2 ^ (p.host - m)⟩, p.bits + m⟩ =
      p.host - m := by
    simp only [Pfx.host, Addr.bitLen]
    omega
  rw [haddr, Pfx.Contains, hhost, Nat.add_mul_div_right _ _ (Nat.two_pow_pos _)]
  obtain ⟨c, hc⟩ := p.masked
  rw [hc, Nat.mul_div_cancel_left _ (Nat.two_pow_pos _), hsize, mul_assoc, mul_left_comm,
    Nat.mul_div_cancel_left _ (Nat.two_pow_pos _)]

/-- The bits of a subnet begin with those of its prefix. -/
theorem div_of_subnet {p : Base} {m j v : Nat} (hm : m ≤ p.host) (hj : j < 2 ^ m)
    (hv : v / 2 ^ (p.host - m) = 2 ^ m * (p.addr.value / 2 ^ p.host) + j) :
    v / 2 ^ p.host = p.addr.value / 2 ^ p.host := by
  calc v / 2 ^ p.host = v / 2 ^ (p.host - m) / 2 ^ m := by
        rw [Nat.div_div_eq_div_mul, ← pow_add, Nat.sub_add_cancel hm]
    _ = p.addr.value / 2 ^ p.host := by
        rw [hv, Nat.mul_add_div (Nat.two_pow_pos _), Nat.div_eq_of_lt hj, Nat.add_zero]

theorem sound_of_nonneg : Sound p 0 where
  subnet newBits i q hi h := by
    obtain ⟨m, rfl, hm, hlt, rfl⟩ := cidrSubnet_some h
    obtain ⟨j, rfl⟩ := eq_ofNat_of_zero_le hi
    have hj : j < 2 ^ m := by exact_mod_cast hlt
    refine ⟨by push_cast; rfl, fun a ha => ?_⟩
    have ⟨hfam, hv⟩ := (contains_subnet hm hj).1 ha
    exact ⟨hfam, div_of_subnet hm hj hv⟩
  apart newBits i i' q q' hi hi' hne h h' a := by
    -- two subnets of one length differ in the bits of their index
    rintro ⟨ha, ha'⟩
    obtain ⟨m, rfl, hm, hlt, rfl⟩ := cidrSubnet_some h
    obtain ⟨m', hbits, hm', hlt', rfl⟩ := cidrSubnet_some h'
    obtain rfl : m = m' := by omega
    obtain ⟨j, rfl⟩ := eq_ofNat_of_zero_le hi
    obtain ⟨j', rfl⟩ := eq_ofNat_of_zero_le hi'
    have hv := ((contains_subnet hm (by exact_mod_cast hlt)).1 ha).2
    have hv' := ((contains_subnet hm (by exact_mod_cast hlt')).1 ha').2
    omega
  host i q hi h := by
    unfold cidrHost at h
    split at h
    · cases h
    · next hlt =>
      obtain ⟨j, rfl⟩ := eq_ofNat_of_zero_le hi
      have hj : j < 2 ^ p.host := by exact_mod_cast not_le.1 hlt
      obtain rfl := Except.ok.inj h
      obtain ⟨c, hc⟩ := p.masked
      simp only [Pfx.Contains, bigToAddr_add p hj, true_and]
      rw [hc, Nat.mul_add_div (Nat.two_pow_pos _), Nat.div_eq_of_lt hj, Nat.add_zero,
        Nat.mul_div_cancel_left _ (Nat.two_pow_pos _)]

/-! ### The number below zero -/

/-- The prefix itself is its only subnet of the same length, and the number below is
    accepted too. -/
theorem cidrSubnet_bits {i : Int} (hi : i < 1) : cidrSubnet p i p.bits =
    .ok ⟨bigToAddr (p.addr.value + i * 2 ^ p.host) p.addr.is4, p.bits⟩ := by
  have := p.short
  unfold cidrSubnet
  rw [if_neg (by omega)]
  simp only [toNat_natCast, Nat.sub_self, pow_zero]
  rw [if_neg (by omega)]
  rfl

theorem not_sound_neg_one : ¬ Sound p (-1) := by
  intro h
  have hbelow := cidrSubnet_bits p (i := -1) (by decide)
  have hself := cidrSubnet_bits p (i := 0) (by decide)
  have hin := ((h.subnet _ _ _ le_rfl hbelow).2 _ ⟨rfl, rfl⟩).2
  have hpos := Nat.two_pow_pos p.host
  have hhost : p.host ≤ 128 := by
    unfold Pfx.host Addr.bitLen
    split <;> omega
  obtain ⟨c, hc⟩ := p.masked
  have hend := p.valid.1
  have hvalue : (bigToAddr (p.addr.value + -1 * 2 ^ p.host) p.addr.is4).value =
      ((p.addr.value : Int) + -1 * 2 ^ p.host).natAbs % 2 ^ 128 := rfl
  rw [hvalue] at hin
  cases c with
  | succ c =>
    -- the sum is the address one prefix below
    have hsum : (p.addr.value : Int) + -1 * 2 ^ p.host = (2 ^ p.host * c : Nat) := by
      rw [hc]
      push_cast
      ring
    rw [hsum, natAbs_natCast, Nat.mod_eq_of_lt (by rw [hc] at hend; lia), hc,
      Nat.mul_div_cancel_left _ hpos, Nat.mul_div_cancel_left _ hpos] at hin
    omega
  | zero =>
    have hzero : p.addr.value = 0 := hc
    have hsum : ((p.addr.value : Int) + -1 * 2 ^ p.host).natAbs = 2 ^ p.host := by
      rw [hzero, Nat.cast_zero, zero_add, neg_one_mul, natAbs_neg, natAbs_pow]
      rfl
    rcases hhost.lt_or_eq with hlt | heq
    · -- the absolute value is the address one prefix above
      rw [hsum, Nat.mod_eq_of_lt (Nat.pow_lt_pow_right (by decide) hlt), hzero,
        Nat.div_self hpos, Nat.zero_div] at hin
      cases hin
    · -- the whole space is found a second time
      have hsame : bigToAddr (p.addr.value + -1 * 2 ^ p.host) p.addr.is4 =
          bigToAddr (p.addr.value + 0 * 2 ^ p.host) p.addr.is4 := by
        simp only [bigToAddr, hzero, heq]
        rfl
      exact h.apart _ _ _ _ _ le_rfl (by decide) (by decide) hbelow hself _
        ⟨⟨rfl, rfl⟩, by rw [hsame]; exact ⟨rfl, rfl⟩⟩

/-- The helpers keep to their prefix, and apart from each other, exactly if no number is
    negative. -/
theorem carve_sound_iff (p : Base) (lower : Int) : Sound p lower ↔ 0 ≤ lower := by
  constructor
  · intro h
    by_contra hneg
    exact not_sound_neg_one p (h.mono (by omega))
  · exact fun h => (sound_of_nonneg p).mono h

/-- The subnet below the first is carved out of a neighbour. -/
theorem cidrSubnet_leaves_base : ∃ p : Base, ∃ q, cidrSubnet p (-1) 16 = .ok q ∧
    p.toPfx = ⟨⟨true, mapped + 10 * 2 ^ 24⟩, 8⟩ ∧
    q = ⟨⟨true, mapped + 9 * 2 ^ 24 + 255 * 2 ^ 16⟩, 16⟩ ∧ ¬ p.Contains q.addr :=
  ⟨⟨⟨⟨true, mapped + 10 * 2 ^ 24⟩, 8⟩, by decide, by decide, by decide⟩, _, rfl, rfl,
    by decide, by decide⟩

end Ipam

end Twinet
