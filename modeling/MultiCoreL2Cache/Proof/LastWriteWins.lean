import MultiCoreL2Cache.Library.Cell
import MultiCoreL2Cache.Model.MemDP

/-!
# `memDP` over a history

After a reset every word is what the latest write left in it. The bypass shows a word one cycle
early.
-/

namespace MultiCoreL2Cache.MemDP

open Cell Packed

variable {width depth readPorts : Nat} {input : Nat → MemCycle width depth readPorts}
  {mem mem' : MemData width depth} {b k : Nat} {i : Fin depth}

/-- `b` is the latest of the earlier cycles in which `reset` was high. -/
structure LastReset (input : Nat → MemCycle width depth readPorts) (b k : Nat) : Prop where
  before : b < k
  reset : (input b).reset = true
  running : ∀ j, b < j → j < k → (input j).reset = false

def writeTo (input : Nat → MemCycle width depth readPorts) (addr : BitVec (clog2 depth)) (j : Nat) :
    Option (BitVec width) :=
  if (input j).write.we ∧ (input j).write.waddr = addr then some (input j).write.wdata else none

/-- The data of the latest write to `addr` since the last reset, or zero. -/
abbrev LatestWrite (input : Nat → MemCycle width depth readPorts) (b k : Nat)
    (addr : BitVec (clog2 depth)) : BitVec width → Prop :=
  Latest (writeTo input addr) 0 (b + 1) k

theorem word_of_lt {addr : BitVec (clog2 depth)} (haddr : addr.toNat < depth) :
    word mem addr = some (mem ⟨addr.toNat, haddr⟩) := select?_of_lt mem haddr

theorem posedge_eq_getD {addr : BitVec (clog2 depth)} (haddr : addr.toNat < depth) {j : Nat}
    (hrunning : (input j).reset = false) :
    posedge (input j).reset (input j).write mem ⟨addr.toNat, haddr⟩ =
      (writeTo input addr j).getD (mem ⟨addr.toNat, haddr⟩) := by
  have hsame : addr.toNat = (input j).write.waddr.toNat ↔ (input j).write.waddr = addr :=
    ⟨fun h => (BitVec.eq_of_toNat_eq h).symm, fun h => congrArg BitVec.toNat h.symm⟩
  rw [hrunning, posedge_apply, writeTo]
  simp only [hsame]
  split <;> rfl

/-- **Each word holds the latest write to it.** -/
theorem contents_latest (hreset : LastReset input b k) {addr : BitVec (clog2 depth)}
    (haddr : addr.toNat < depth) :
    LatestWrite input b k addr (contents mem input k ⟨addr.toNat, haddr⟩) := by
  refine latest_of_steps (x := fun k => contents mem input k ⟨addr.toNat, haddr⟩)
    hreset.before ?_ fun j hbj hjk => ?_
  · rw [contents, Clocked.run_succ, hreset.reset]
    rfl
  · exact posedge_eq_getD haddr (hreset.running j hbj hjk)

/-- What instances had before the reset is gone. -/
theorem contents_eq (hreset : LastReset input b k) {addr : BitVec (clog2 depth)}
    (haddr : addr.toNat < depth) :
    contents mem' input k ⟨addr.toNat, haddr⟩ = contents mem input k ⟨addr.toNat, haddr⟩ :=
  (contents_latest hreset haddr).unique (contents_latest hreset haddr)

theorem rdata_enabled {bypassEn : Nat} {port : WritePort width depth} {addr : BitVec (clog2 depth)}
    (haddr : addr.toNat < depth) :
    rdata bypassEn mem port true addr =
      some (if bypassEn ≠ 0 ∧ port.we = true ∧ addr = port.waddr then port.wdata
        else mem ⟨addr.toNat, haddr⟩) := by
  unfold rdata
  rw [word_of_lt haddr]
  by_cases hbypass : bypassEn = 0 <;> by_cases hwe : port.we = true <;>
    by_cases hsame : addr = port.waddr <;> simp [hbypass, hwe, hsame]

/-- The bypass reads what the cycle leaves in the array. -/
theorem bypass_eq (hreset : LastReset input b k) (hrunning : (input k).reset = false)
    {addr : BitVec (clog2 depth)} (haddr : addr.toNat < depth) (port : WritePort width depth) :
    rdata 1 (contents mem' input k) (input k).write true addr =
      rdata 0 (contents mem input (k + 1)) port true addr := by
  have hnext : contents mem input (k + 1) ⟨addr.toNat, haddr⟩ =
      (writeTo input addr k).getD (contents mem input k ⟨addr.toNat, haddr⟩) :=
    posedge_eq_getD haddr hrunning
  rw [rdata_enabled haddr, rdata_enabled haddr, hnext, contents_eq hreset haddr, writeTo]
  by_cases hwrites : (input k).write.we = true ∧ (input k).write.waddr = addr
  · rw [if_pos hwrites, if_pos ⟨Nat.one_ne_zero, hwrites.1, hwrites.2.symm⟩,
      if_neg fun h => h.1 rfl]
    rfl
  · rw [if_neg hwrites, if_neg fun h => hwrites ⟨h.2.1, h.2.2.symm⟩, if_neg fun h => h.1 rfl]
    rfl

/-- **`memDP` is a last-write-wins memory in both modes.** -/
theorem last_write_wins (mem mem' : MemData width depth)
    (input : Nat → MemCycle width depth readPorts) {b k : Nat} (hreset : LastReset input b k)
    (p : Fin readPorts) (haddr : ((input k).raddr p).toNat < depth) :
    ((input k).re p = true → ∀ value,
      (input k).read 0 (contents mem input k) p = some value ↔
        LatestWrite input b k ((input k).raddr p) value) ∧
    ((input k).re p = false → (input k).read 0 (contents mem input k) p = some 0) ∧
    ((input k).reset = false → (input k).re p = true →
      (input k).read 1 (contents mem' input k) p =
        rdata 0 (contents mem input (k + 1)) (input (k + 1)).write true ((input k).raddr p)) := by
  unfold MemCycle.read
  refine ⟨fun hre value => ?_, fun hre => ?_, fun hrunning hre => ?_⟩
  · have hlatest : LatestWrite input b k _ (contents mem input k ⟨_, haddr⟩) :=
      contents_latest hreset haddr
    rw [hre, rdata_enabled haddr, if_neg fun h => h.1 rfl, Option.some_inj]
    constructor
    · rintro rfl
      exact hlatest
    · exact hlatest.unique
  · rw [hre]
    rfl
  · rw [hre]
    exact bypass_eq hreset hrunning haddr _

def writeThenRead : Nat → MemCycle 8 2 1
  | 0 => ⟨true, fun _ => false, fun _ => 0, ⟨false, 0, 0⟩⟩
  | 1 => ⟨false, fun _ => false, fun _ => 0, ⟨true, 1, 7⟩⟩
  | _ + 2 => ⟨false, fun _ => true, fun _ => 1, ⟨false, 0, 0⟩⟩

theorem writeThenRead_reset : LastReset writeThenRead 0 2 where
  before := Nat.two_pos
  reset := rfl
  running j hbj hjk := by
    obtain rfl : j = 1 := by omega
    rfl

theorem writeThenRead_reads :
    (writeThenRead 2).read 0 (contents (fun _ => 3) writeThenRead 2) 0 = some 7 := by
  have hreads := last_write_wins (fun _ => 3) (fun _ => 5) writeThenRead writeThenRead_reset 0
    (by decide)
  refine (hreads.1 rfl 7).mpr (.written (Nat.le_refl 1) Nat.one_lt_two rfl fun l hl hlk => ?_)
  omega

end MultiCoreL2Cache.MemDP
