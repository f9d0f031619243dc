import Mathlib.Algebra.Group.Nat.Defs
import Mathlib.Order.Lattice
import Twinet.Lib.Fallible

/-!
# Shaping

The rate, the delay and the queue that a link is shaped with. The limits of the two
queues are computed on words of 64 bits, and what the kernel is given has 32. So a limit
is right as long as no product leaves its word, or if it is cut off all the same, and what
is passed on is right as long as it fits.

What the netlink library makes of the attributes it is given (it turns microseconds into
ticks of the scheduler) is a parameter: the delay that is passed on is the one the library
is given.

## Main definitions

* `tbfLimit`, `netemLimit`: The limits of the two queues.
* `desiredShaping`: The queues of a link.
* `TbfFits`, `NetemFits`: When a limit comes out right, in numbers without a bound.
* `PassedFit`: When what is passed on fits.

## Theorems

* `tbfSaturates_iff`, `netemLimit_iff`: When the limits are right.
* `passedOn_iff`: When what is passed on is right.
* `shaping_saturates_iff`: When all of it is.
-/

namespace Twinet

namespace Netx

structure Shaping where
  bandwidth : String
  delay : String
  queue : String
  loss : String
deriving DecidableEq, Repr

/-- What the texts mean. An empty one means nothing. -/
structure Parsers (Loss : Type) where
  rate : String → Option UInt64
  time : String → Option UInt64
  percent : String → Option Loss
  empty : rate "" = none ∧ time "" = none

structure ShapedLink where
  name : String
  mtu : Int64

/-- What the delaying queue is made from. -/
structure NetemAttrs (Loss : Type) where
  latency : UInt32
  loss : Option Loss
  limit : UInt32

/-- The bucket, with the burst and the latency that its buffer and its limit come from. -/
structure Tbf where
  rate : UInt64
  burst : UInt32
  latency : UInt32
  limit : UInt32

inductive ShapingError where
  | delay (interface : String)
  | loss (interface : String)
  | bandwidth (interface : String)
  | queue (interface : String)
deriving DecidableEq, Repr

/-- The size that is used, as the word it is computed with. -/
def ShapedLink.usedMTU (link : ShapedLink) : UInt64 :=
  if link.mtu ≤ 0 then 1500 else link.mtu.toUInt64

def burstSize (rate mtu : UInt64) : UInt64 :=
  if rate / 10 < 10 * mtu then 10 * mtu else rate / 10

def tbfLimit (rate : UInt64) (latency : UInt32) (burst : UInt64) : UInt32 :=
  let l := rate * latency.toUInt64 / 1000000 + burst
  if 4294967295 < l then 4294967295
  else if l = 0 then burst.toUInt32
  else l.toUInt32

section

variable {Loss : Type} (p : Parsers Loss) (link : ShapedLink) (s : Shaping)

def netemLimit (mtu : UInt64) : UInt32 :=
  match p.rate s.bandwidth, p.time s.delay with
  | some rate, some us =>
    -- two bandwidth-delay products of packets
    let pkts := 2 * (rate * us / 1000000) / mtu
    if pkts < 1000 then 1000
    else if 100000 < pkts then 100000
    else pkts.toUInt32
  | _, _ => 1000

/-- What a text means, if it is not empty. -/
def declared {α : Type} (parse : String → Option α) (text : String) (err : ShapingError) :
    Except ShapingError (Option α) :=
  if text = "" then .ok none
  else match parse text with
    | some v => .ok (some v)
    | none => .error err

/-- The queues of a link, the delaying one as the library makes it. -/
def desiredShaping {Qdisc : Type} (newNetem : NetemAttrs Loss → Qdisc) :
    Except ShapingError (Qdisc × Option Tbf) := do
  let delay ← declared p.time s.delay (.delay link.name)
  let loss ← declared p.percent s.loss (.loss link.name)
  let netem := newNetem
    ⟨(delay.map UInt64.toUInt32).getD 0, loss, netemLimit p s link.usedMTU⟩
  match ← declared p.rate s.bandwidth (.bandwidth link.name) with
  | none => return (netem, none)
  | some rate =>
    let queue ← declared p.time s.queue (.queue link.name)
    let latency := (queue.map UInt64.toUInt32).getD 50000
    let burst := burstSize rate link.usedMTU
    return (netem, some ⟨rate, burst.toUInt32, latency, tbfLimit rate latency burst⟩)

end

/-! ### Limits -/

section Limits

variable (rate : UInt64) (latency : UInt32) (burst : UInt64)

/-- The limit is the true one, up to the largest there is. -/
def TbfSaturates : Prop := (tbfLimit rate latency burst).toNat =
  min 4294967295 (rate.toNat * latency.toNat / 1000000 + burst.toNat)

/-- Nothing wraps, or what is left of the product and the burst is the largest all the
    same, or nothing is left and the low half of the burst is. -/
def TbfFits : Prop :=
  let product := rate.toNat * latency.toNat
  let left := (product % 2 ^ 64 / 1000000 + burst.toNat) % 2 ^ 64
  (product < 2 ^ 64 ∧ product / 1000000 + burst.toNat < 2 ^ 64) ∨ 4294967295 ≤ left ∨
    (left = 0 ∧ burst.toNat % 2 ^ 32 = 4294967295)

/-- The limit of the bucket is right exactly if its total fits. -/
theorem tbfSaturates_iff : TbfSaturates rate latency burst ↔ TbfFits rate latency burst := by
  have hburst := burst.toNat_lt
  have hlimit : (tbfLimit rate latency burst).toNat =
      let left := (rate.toNat * latency.toNat % 2 ^ 64 / 1000000 + burst.toNat) % 2 ^ 64
      if 4294967295 < left then 4294967295
      else if left = 0 then burst.toNat % 2 ^ 32 else left := by
    simp only [tbfLimit, apply_ite UInt32.toNat, UInt64.lt_iff_toNat_lt, ← UInt64.toNat_inj,
      UInt64.toNat_toUInt32, UInt64.reduceToNat, UInt32.reduceToNat, UInt64.toNat_add,
      UInt64.toNat_div, UInt64.toNat_mul, UInt32.toNat_toUInt64]
    split_ifs <;> omega
  rw [TbfSaturates, hlimit]
  unfold TbfFits
  generalize rate.toNat * latency.toNat = product
  dsimp only
  by_cases hwraps : product < 2 ^ 64 ∧ product / 1000000 + burst.toNat < 2 ^ 64
  · rw [Nat.mod_eq_of_lt hwraps.1, Nat.mod_eq_of_lt hwraps.2]
    split_ifs <;> omega
  · -- the true total is past the maximum
    have hlarge : 4294967295 ≤ product / 1000000 + burst.toNat := by omega
    rw [Nat.min_eq_left hlarge]
    generalize (product % 2 ^ 64 / 1000000 + burst.toNat) % 2 ^ 64 = total
    split_ifs <;> omega

variable {Loss : Type} {p : Parsers Loss} {s : Shaping} (us mtu : UInt64)

/-- The true number of packets. -/
def truePackets : Nat := 2 * (rate.toNat * us.toNat / 1000000) / mtu.toNat

/-- The product does not wrap, or what is left of it is as many packets, or the queue is the
    shortest or the longest all the same. -/
def NetemFits : Prop :=
  let left := 2 * (rate.toNat * us.toNat % 2 ^ 64 / 1000000) / mtu.toNat
  rate.toNat * us.toNat < 2 ^ 64 ∨ left = truePackets rate us mtu ∨
    truePackets rate us mtu ≤ 1000 ∨ 100000 ≤ left

/-- The limit of the delaying queue is right exactly if its packets fit. -/
theorem netemLimit_iff (hrate : p.rate s.bandwidth = some rate)
    (hus : p.time s.delay = some us) : (netemLimit p s mtu).toNat =
        max 1000 (min 100000 (truePackets rate us mtu)) ↔ NetemFits rate us mtu := by
  have hlimit : (netemLimit p s mtu).toNat = max 1000 (min 100000
      (2 * (rate.toNat * us.toNat % 2 ^ 64 / 1000000) / mtu.toNat)) := by
    -- doubling does not wrap after the division
    have hdouble : 2 * (rate.toNat * us.toNat % 2 ^ 64 / 1000000) % 2 ^ 64 =
        2 * (rate.toNat * us.toNat % 2 ^ 64 / 1000000) := by omega
    simp only [netemLimit, hrate, hus, apply_ite UInt32.toNat, UInt64.lt_iff_toNat_lt,
      UInt64.toNat_toUInt32, UInt64.reduceToNat, UInt32.reduceToNat, UInt64.toNat_div,
      UInt64.toNat_mul, hdouble]
    split_ifs <;> omega
  have hle : 2 * (rate.toNat * us.toNat % 2 ^ 64 / 1000000) / mtu.toNat ≤
      truePackets rate us mtu :=
    Nat.div_le_div_right (Nat.mul_le_mul_left _ (Nat.div_le_div_right (Nat.mod_le _ _)))
  rw [hlimit]
  unfold NetemFits
  by_cases hfits : rate.toNat * us.toNat < 2 ^ 64
  · rw [Nat.mod_eq_of_lt hfits]
    exact iff_of_true rfl (.inl hfits)
  · dsimp only
    omega

end Limits

/-! ### What is passed on -/

theorem declared_ok {α : Type} {parse : String → Option α} {text : String} {err : ShapingError}
    {v : Option α} (hempty : parse "" = none) (h : declared parse text err = .ok v) :
    v = parse text := by
  unfold declared at h
  split_ifs at h with htext
  · cases h
    rw [htext, hempty]
  · split at h
    · cases h
      symm
      assumption
    · cases h

theorem toNat_burstSize (rate mtu : UInt64) : (burstSize rate mtu).toNat =
    max (rate.toNat / 10) (10 * mtu.toNat % 2 ^ 64) := by
  simp only [burstSize, apply_ite UInt64.toNat, UInt64.lt_iff_toNat_lt, UInt64.toNat_div,
    UInt64.toNat_mul, UInt64.reduceToNat]
  split_ifs <;> omega

section

variable {Loss : Type} (p : Parsers Loss) (link : ShapedLink) (s : Shaping)

/-- The delay, the burst and the latency are what was read or is computed. -/
def PassedOn (netem : NetemAttrs Loss) (tbf : Option Tbf) : Prop :=
  netem.latency.toNat = ((p.time s.delay).map UInt64.toNat).getD 0 ∧
  tbf.map (·.burst.toNat) = (p.rate s.bandwidth).map (fun rate =>
    max (rate.toNat / 10) (10 * link.usedMTU.toNat)) ∧
  tbf.map (·.latency.toNat) = (p.rate s.bandwidth).map fun _ =>
    ((p.time s.queue).map UInt64.toNat).getD 50000

/-- Every number that is passed on is a word of 32 bits. -/
def PassedFit : Prop :=
  (∀ us ∈ p.time s.delay, us.toNat < 2 ^ 32) ∧ ∀ rate ∈ p.rate s.bandwidth,
    (rate.toNat / 10 < 2 ^ 32 ∧ 10 * link.usedMTU.toNat < 2 ^ 32) ∧
      ∀ us ∈ p.time s.queue, us.toNat < 2 ^ 32

/-- The library is given attributes that are right exactly if everything fits. -/
theorem passedOn_iff {Qdisc : Type} {newNetem : NetemAttrs Loss → Qdisc} {p link s}
    {qdisc : Qdisc} {tbf : Option Tbf} (h : desiredShaping p link s newNetem = .ok (qdisc, tbf)) :
    ∃ netem, desiredShaping p link s id = .ok (netem, tbf) ∧ qdisc = newNetem netem ∧
      (PassedOn p link s netem tbf ↔ PassedFit p link s) := by
  -- the kernel takes 32 bits of what is 64 bits here
  have hcut : ∀ x : UInt64, x.toUInt32.toNat = x.toNat ↔ x.toNat < 2 ^ 32 := by
    intro x
    rw [UInt64.toNat_toUInt32]
    omega
  have hburst : ∀ rate, (burstSize rate link.usedMTU).toUInt32.toNat =
      max (rate.toNat / 10) (10 * link.usedMTU.toNat) ↔
        rate.toNat / 10 < 2 ^ 32 ∧ 10 * link.usedMTU.toNat < 2 ^ 32 := by
    intro rate
    rw [UInt64.toNat_toUInt32, toNat_burstSize]
    omega
  have hdelay : ∀ x : Option UInt64, ((x.map UInt64.toUInt32).getD 0).toNat =
      (x.map UInt64.toNat).getD 0 ↔ ∀ us ∈ x, us.toNat < 2 ^ 32 := by
    rintro (_ | us)
    · simp
    · simp
  unfold desiredShaping at h
  obtain ⟨delay, hd, h⟩ := Fallible.exists_of_bind h
  obtain ⟨loss, hl, h⟩ := Fallible.exists_of_bind h
  obtain ⟨bandwidth, hb, h⟩ := Fallible.exists_of_bind h
  simp only [PassedOn, PassedFit, ← declared_ok p.empty.2 hd, ← declared_ok p.empty.1 hb,
    desiredShaping, hd, hl, hb]
  -- without a rate there is no token bucket
  cases bandwidth with
  | none =>
    cases h
    exact ⟨_, rfl, rfl, by simpa using hdelay delay⟩
  | some rate =>
    obtain ⟨queue, hq, h⟩ := Fallible.exists_of_bind h
    simp only [← declared_ok p.empty.2 hq, hq]
    cases h
    refine ⟨_, rfl, rfl, and_congr (hdelay delay) ?_⟩
    cases queue with
    | none => simpa using hburst rate
    | some us => simpa using and_congr (hburst rate) (hcut us)

end

/-- The two limits are the true ones, cut off, and the library is given the delay, the burst
    and the latency unchanged, exactly if nothing wraps that is not cut off anyway and
    everything fits. -/
theorem shaping_saturates_iff {Loss : Type} (p : Parsers Loss) :
    (∀ rate latency burst, TbfSaturates rate latency burst ↔ TbfFits rate latency burst) ∧
    (∀ s rate us mtu, 0 < mtu → p.rate s.bandwidth = some rate → p.time s.delay = some us →
      ((netemLimit p s mtu).toNat = max 1000 (min 100000 (truePackets rate us mtu)) ↔
        NetemFits rate us mtu)) ∧
    ∀ {Qdisc : Type} (newNetem : NetemAttrs Loss → Qdisc) link s qdisc tbf,
      desiredShaping p link s newNetem = .ok (qdisc, tbf) →
      ∃ netem, desiredShaping p link s id = .ok (netem, tbf) ∧ qdisc = newNetem netem ∧
        (PassedOn p link s netem tbf ↔ PassedFit p link s) :=
  ⟨tbfSaturates_iff, fun _ rate us mtu _ => netemLimit_iff rate us mtu,
    fun _ _ _ _ _ => passedOn_iff⟩

/-- A delay of 4295 seconds. -/
theorem delay_truncated : ∃ (p : Parsers Unit) (netem : NetemAttrs Unit),
    desiredShaping p ⟨"eth0", 1500⟩ ⟨"", "4295s", "", ""⟩ id = .ok (netem, none) ∧
      p.time "4295s" = some 4295000000 ∧ netem.latency = 32704 :=
  ⟨⟨fun _ => none, fun text => if text = "" then none else some 4295000000, fun _ => none,
    rfl, rfl⟩, _, rfl, rfl, by decide⟩

end Netx

end Twinet
