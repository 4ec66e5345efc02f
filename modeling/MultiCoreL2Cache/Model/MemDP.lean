import MultiCoreL2Cache.Library.Clocked
import MultiCoreL2Cache.Library.Packed
import MultiCoreL2Cache.Model.SysDefs

/-!
# The memory `memDP`

`depth` words of `width` bits with one write port and any number of read ports. A read outside the
array is `none`, the simulator's `x`; a write outside it is ignored.
-/

namespace MultiCoreL2Cache.MemDP

open Packed

variable {width depth : Nat}

abbrev MemData (width depth : Nat) := Fin depth → BitVec width

structure WritePort (width depth : Nat) where
  we : Bool
  waddr : BitVec (clog2 depth)
  wdata : BitVec width

def word (memData : MemData width depth) (raddr : BitVec (clog2 depth)) : Option (BitVec width) :=
  select? memData raddr.toNat

/-- One read port. With `BYPASS_EN` a write to the same address shows in the cycle that makes it. -/
def rdata (bypassEn : Nat) (memData : MemData width depth) (port : WritePort width depth)
    (re : Bool) (raddr : BitVec (clog2 depth)) : Option (BitVec width) :=
  if bypassEn ≠ 0 then
    if re then
      if port.we && raddr == port.waddr then some port.wdata else word memData raddr
    else some 0
  else if re then word memData raddr else some 0

def posedge (reset : Bool) (port : WritePort width depth) (memData : MemData width depth) :
    MemData width depth :=
  if reset then fun _ => 0
  else if port.we then assign memData port.waddr.toNat fun _ => port.wdata
  else memData

theorem posedge_apply (port : WritePort width depth) (memData : MemData width depth)
    (i : Fin depth) :
    posedge false port memData i =
      if port.we = true ∧ i.val = port.waddr.toNat then port.wdata else memData i := by
  unfold posedge
  cases port.we with
  | false => simp
  | true => simp [assign_apply]

theorem posedge_congr {reset : Bool} {port port' : WritePort width depth}
    {memData : MemData width depth} (hwe : port.we = port'.we)
    (hwrite : port.we = true → port.wdata = port'.wdata ∧
      (port.waddr = port'.waddr ∨ (depth ≤ port.waddr.toNat ∧ depth ≤ port'.waddr.toNat))) :
    posedge reset port memData = posedge reset port' memData := by
  cases reset with
  | true => rfl
  | false =>
      funext i
      rw [posedge_apply, posedge_apply, ← hwe]
      by_cases hen : port.we = true
      · obtain ⟨hdata, haddr | ⟨hout, hout'⟩⟩ := hwrite hen
        · rw [hdata, haddr]
        · have hi := i.isLt
          rw [if_neg (by omega), if_neg (by omega)]
      · rw [if_neg fun h => hen h.1, if_neg fun h => hen h.1]

/-! ### Histories -/

/-- The ports of an instance in one clock cycle. -/
structure MemCycle (width depth readPorts : Nat) where
  reset : Bool
  re : Fin readPorts → Bool
  raddr : Fin readPorts → BitVec (clog2 depth)
  write : WritePort width depth

variable {readPorts : Nat}

def MemCycle.read (c : MemCycle width depth readPorts) (bypassEn : Nat)
    (memData : MemData width depth) (p : Fin readPorts) : Option (BitVec width) :=
  rdata bypassEn memData c.write (c.re p) (c.raddr p)

/-- `memData` at the start of each cycle. -/
abbrev contents (memData : MemData width depth) (input : Nat → MemCycle width depth readPorts) :
    Nat → MemData width depth :=
  Clocked.run (fun memData c => posedge c.reset c.write memData) memData input

end MultiCoreL2Cache.MemDP
