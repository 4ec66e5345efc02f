import Mathlib.Data.Set.Function
import MultiCoreL2Cache.Model.System
import MultiCoreL2Cache.Proof.CombEffects

/-!
# The replacement counters

A refill takes the way whose counter is zero, gives it the largest value and lowers the others by one.
Nothing else touches the counters, so those of a set are determined by the number of refills of that
set since the last reset: they rotate.
-/

namespace MultiCoreL2Cache

open Packed

variable {cfg : Config} {r : Regs cfg} {c : Cycle cfg} {s : Machine cfg} {set : Fin cfg.numSets}
  {n : Fin cfg.numSets → Nat} {i : cfg.Way}

theorem le_two_pow_clog2 (n : Nat) : n ≤ 2 ^ clog2 n := by
  unfold clog2
  split
  · omega
  · have hlog := Nat.lt_log2_self (n := n - 1)
    omega

theorem Config.ways_le (cfg : Config) : cfg.ways ≤ 2 ^ cfg.wayIdxBits := le_two_pow_clog2 cfg.ways

theorem toNat_pos_of_ne_zero {w : Nat} {x : BitVec w} (h : x ≠ 0) : 0 < x.toNat := by
  have hne : x.toNat ≠ (0 : BitVec w).toNat := mt BitVec.eq_of_toNat_eq h
  have hzero : (0 : BitVec w).toNat = 0 := BitVec.toNat_zero
  omega

theorem toNat_sub_one {w : Nat} {x : BitVec w} (h : x ≠ 0) : (x - 1).toNat = x.toNat - 1 := by
  have hpos := toNat_pos_of_ne_zero h
  have hbits := x.isLt
  have hone : (1 : BitVec w).toNat = 1 := by
    have hlt : 1 < 2 ^ w := by omega
    exact (BitVec.toNat_ofNat 1 w).trans (Nat.mod_eq_of_lt hlt)
  have hle : 1 ≤ x := by
    rw [BitVec.le_def, hone]
    exact hpos
  rw [BitVec.toNat_sub_of_le hle, hone]

/-- A refill of `set` completes in this cycle. -/
def RefillsSet (s : Machine cfg) (c : Cycle cfg) (set : Fin cfg.numSets) : Prop :=
  s.Acts c ∧ c.rPacket.rValid = true ∧ headSet s.regs = some set

instance (s : Machine cfg) (c : Cycle cfg) (set : Fin cfg.numSets) : Decidable (RefillsSet s c set) :=
  instDecidableAnd

/-- The number of refills of each set since the last reset. -/
abbrev RefillCounts (cfg : Config) := Fin cfg.numSets → Nat

def RefillCounts.step (n : RefillCounts cfg) (s : Machine cfg) (c : Cycle cfg) : RefillCounts cfg :=
  fun set => if c.reset then 0 else if RefillsSet s c set then n set + 1 else n set

abbrev RefillCounts.run (s : Machine cfg) (input : Nat → Cycle cfg) : Nat → RefillCounts cfg :=
  Clocked.history Machine.step RefillCounts.step (fun _ => 0) s input

/-- The counters of each set after `n` refills of it: `(i - n) mod WAYS`. -/
def Rotated (r : Regs cfg) (n : RefillCounts cfg) : Prop :=
  ∀ set i, ((r.lrus set i).toNat : Int) = ((i.val : Int) - n set) % cfg.ways

theorem rotated_reset (cfg : Config) : Rotated (Regs.reset cfg) fun _ => 0 := by
  intro set i
  have hi := i.isLt
  have hways := cfg.ways_le
  have hmod : (BitVec.ofNat cfg.wayIdxBits i.val).toNat = i.val := by
    rw [BitVec.toNat_ofNat, Nat.mod_eq_of_lt (by omega)]
  have hint : ((i.val : Int) - (0 : Nat)) % cfg.ways = i.val := by
    rw [Int.emod_eq_of_lt (by omega) (by omega)]
    omega
  rw [Regs.reset, hmod, hint]

namespace Rotated

theorem eq_zero_iff (h : Rotated r n) : r.lrus set i = 0 ↔ i.val = n set % cfg.ways := by
  have hcount := h set i
  have hi := i.isLt
  have hzero : r.lrus set i = 0 ↔ ((i.val : Int) - n set) % cfg.ways = 0 := by
    rw [← hcount, ← BitVec.toNat_inj]
    simp
  rw [hzero, ← Int.emod_eq_emod_iff_emod_sub_eq_zero, Int.emod_eq_of_lt (by omega) (by omega)]
  omega

theorem lruWay_val (h : Rotated r n) (hset : headSet r = some set) :
    (lruWay r).val = n set % cfg.ways := by
  have hlt : n set % cfg.ways < cfg.ways := Nat.mod_lt _ cfg.ways_pos
  have hzero : ∀ i, lruIsZero r i = true ↔ i.val = n set % cfg.ways := by
    intro i
    rw [← h.eq_zero_iff]
    simp [lruIsZero, hset]
  have hwinner : lastIndex (lruIsZero r) = some ⟨n set % cfg.ways, hlt⟩ :=
    lastIndex_eq_some_of_unique ((hzero _).mpr rfl) fun j hj => Fin.ext ((hzero j).mp hj)
  rw [lruWay, hwinner]
  rfl

/-- The counter that is lowered is not the zero one. -/
theorem ne_zero_of_ne_lruWay (h : Rotated r n) (hset : headSet r = some set) (hi : i ≠ lruWay r) :
    r.lrus set i ≠ 0 := by
  intro hzero
  apply hi
  rw [Fin.ext_iff, h.lruWay_val hset]
  exact h.eq_zero_iff.mp hzero

theorem touch (h : Rotated r n) (hset : headSet r = some set) :
    ((touchLru r (lruWay r) r.lrus set i).toNat : Int) =
      ((i.val : Int) - (n set + 1 : Nat)) % cfg.ways := by
  have hi := i.isLt
  have hways := cfg.ways_le
  have hcount := h set i
  have hshift : ((i.val : Int) - (n set + 1 : Nat)) % cfg.ways =
      (((i.val : Int) - n set) % cfg.ways - 1) % cfg.ways := by
    rw [Int.emod_sub_emod]
    congr 1
    omega
  unfold touchLru
  simp only [hset, Function.update_self]
  rw [hshift, ← hcount]
  by_cases hwinner : i = lruWay r
  · have hzero : r.lrus set i = 0 := by
      rw [h.eq_zero_iff, hwinner]
      exact h.lruWay_val hset
    have hnat : (r.lrus set i).toNat = 0 := by
      rw [hzero]
      exact BitVec.toNat_zero
    have hmod : (BitVec.ofNat cfg.wayIdxBits (cfg.ways - 1)).toNat = cfg.ways - 1 := by
      rw [BitVec.toNat_ofNat, Nat.mod_eq_of_lt (by omega)]
    rw [if_pos hwinner, hmod, hnat, ← Int.add_emod_right, Int.emod_eq_of_lt (by omega) (by omega)]
    omega
  · have hne := h.ne_zero_of_ne_lruWay hset hwinner
    have hpos := toNat_pos_of_ne_zero hne
    have hlt : ((r.lrus set i).toNat : Int) < cfg.ways := by
      rw [hcount]
      exact Int.emod_lt_of_pos _ (by omega)
    have hone : (r.lrus set i - 1).toNat = (r.lrus set i).toNat - 1 := toNat_sub_one hne
    rw [if_neg hwinner, hone, Int.emod_eq_of_lt (by omega) (by omega)]
    omega

theorem bijOn (h : Rotated r n) (set : Fin cfg.numSets) :
    Set.BijOn (fun i => (r.lrus set i).toNat) Set.univ (Set.Iio cfg.ways) := by
  have hpos := cfg.ways_pos
  refine ⟨fun i _ => ?_, fun i _ j _ hij => ?_, fun v hv => ?_⟩
  · have hcount := h set i
    have hlt := Int.emod_lt_of_pos ((i.val : Int) - n set) (b := cfg.ways) (by omega)
    simp only [Set.mem_Iio]
    omega
  · have hi := h set i
    have hj := h set j
    have heq : ((i.val : Int) - n set) % cfg.ways = ((j.val : Int) - n set) % cfg.ways := by
      rw [← hi, ← hj]
      exact congrArg _ hij
    have hmod := (Int.emod_sub_cancel_right (n set : Int)).mp heq
    have hival := Int.emod_eq_of_lt (a := i.val) (b := cfg.ways) (by omega) (by omega)
    have hjval := Int.emod_eq_of_lt (a := j.val) (b := cfg.ways) (by omega) (by omega)
    rw [hival, hjval] at hmod
    exact Fin.ext (by omega)
  · have hlt : (v + n set) % cfg.ways < cfg.ways := Nat.mod_lt _ hpos
    refine ⟨⟨(v + n set) % cfg.ways, hlt⟩, trivial, ?_⟩
    have hcount := h set ⟨(v + n set) % cfg.ways, hlt⟩
    have hmod : (((v + n set) % cfg.ways : Nat) - (n set : Int)) % cfg.ways = v := by
      push_cast
      rw [Int.emod_sub_emod, Int.add_sub_cancel]
      exact Int.emod_eq_of_lt (by omega) (by exact_mod_cast hv)
    rw [hmod] at hcount
    exact_mod_cast hcount

end Rotated

/-! ### Runs -/

theorem touchLru_of_ne (winner : cfg.Way) (hset : headSet r ≠ some set) :
    touchLru r winner r.lrus set = r.lrus set := by
  unfold touchLru
  cases hhead : headSet r with
  | none => rfl
  | some other =>
      have hne : set ≠ other := by
        rintro rfl
        exact hset hhead
      simp [hne]

theorem step_lrus_of_not_refills (hreset : c.reset = false) (hrefill : ¬RefillsSet s c set) :
    (s.step c).regs.lrus set = s.regs.lrus set := by
  refine Machine.step_keeps (fun r => r.lrus set) hreset fun hacts => ?_
  rw [Machine.settle, comb_lrus]
  by_cases hread : c.rPacket.rValid = true
  · rw [if_pos hread]
    exact touchLru_of_ne _ fun hset => hrefill ⟨hacts, hread, hset⟩
  · rw [if_neg hread]

theorem rotated_step (h : Rotated s.regs n) : Rotated (s.step c).regs (RefillCounts.step n s c) := by
  intro set i
  unfold RefillCounts.step
  by_cases hreset : c.reset = true
  · rw [if_pos hreset, Machine.step_regs_of_reset hreset]
    exact rotated_reset cfg set i
  · rw [if_neg hreset]
    by_cases hrefill : RefillsSet s c set
    · obtain ⟨hacts, hread, hset⟩ := hrefill
      rw [if_pos ⟨hacts, hread, hset⟩, Machine.step_regs_of_acts hacts, Machine.settle, comb_lrus,
        if_pos hread]
      exact h.touch hset
    · rw [if_neg hrefill, step_lrus_of_not_refills (by simpa using hreset) hrefill]
      exact h set i

theorem run_rotated (hreset : s.AfterReset) (input : Nat → Cycle cfg) (k : Nat) :
    Rotated (s.run input k).regs (RefillCounts.run s input k) := by
  refine Clocked.history_invariant RefillCounts.step _ (fun s n => Rotated s.regs n)
    (fun _ _ _ => True) ?_ (fun _ _ _ h _ => rotated_step h) fun _ _ => trivial
  rw [hreset]
  exact rotated_reset cfg

/-- The counters after `n` refills of each set, and what the cycle `c` makes of them. -/
structure RoundRobin (s : Machine cfg) (n : RefillCounts cfg) (c : Cycle cfg) : Prop where
  closedForm : ∀ set i, ((s.regs.lrus set i).toNat : Int) = ((i.val : Int) - n set) % cfg.ways
  permutation : ∀ set,
    Set.BijOn (fun i => (s.regs.lrus set i).toNat) Set.univ (Set.Iio cfg.ways)
  victim : ∀ set, headSet s.regs = some set → (lruWay s.regs).val = n set % cfg.ways
  noWrap : ∀ set, headSet s.regs = some set → ∀ i ≠ lruWay s.regs,
    (s.regs.lrus set i - 1).toNat + 1 = (s.regs.lrus set i).toNat
  others : c.reset = false → ∀ set, headSet s.regs ≠ some set →
    (s.step c).regs.lrus set = s.regs.lrus set

/-- **The replacement state in closed form.** -/
theorem lrus_roundRobin (s : Machine cfg) (hreset : s.AfterReset) (input : Nat → Cycle cfg)
    (k : Nat) : RoundRobin (s.run input k) (RefillCounts.run s input k) (input k) := by
  have hrot := run_rotated hreset input k
  refine ⟨hrot, hrot.bijOn, fun set => hrot.lruWay_val, fun set hset i hi => ?_,
    fun hrst set hset => ?_⟩
  · have hne := hrot.ne_zero_of_ne_lruWay hset hi
    have hpos := toNat_pos_of_ne_zero hne
    rw [toNat_sub_one hne]
    omega
  · exact step_lrus_of_not_refills hrst fun hrefill => hset hrefill.2.2

def refillAndReset : Nat → Drive .shipped
  | 0 => .request .read 0x40 1
  | 1 => .response _ 7#512
  | 2 => .idle _
  | _ + 3 => { Drive.idle .shipped with reset := true }

theorem refillAndReset_roundRobin :
    RoundRobin ((System.fresh .shipped).toMachine.run
        ((System.fresh .shipped).cycles refillAndReset) 2)
      (RefillCounts.run (System.fresh .shipped).toMachine
        ((System.fresh .shipped).cycles refillAndReset) 2)
      ((System.fresh .shipped).cycles refillAndReset 2) :=
  lrus_roundRobin _ (Machine.fresh_afterReset _) _ 2

end MultiCoreL2Cache
