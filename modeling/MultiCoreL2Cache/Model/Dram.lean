import MultiCoreL2Cache.Model.Clock

/-!
# A DRAM that answers in order

The environment at the AXI ports. A channel accepts in every cycle in which its valid and its ready
bit are both set, whether or not the cache is frozen in that cycle. Reads are answered in a later
cycle, in the order in which they were accepted, and a write once its address and its line have been
accepted. The outputs `r_ready` and `b_ready` are never driven, so they hold no answer back.
-/

namespace MultiCoreL2Cache

variable {cfg : Config}

structure Dram where
  reads : List Addr
  writeAddrs : Nat
  writeLines : Nat
deriving DecidableEq

def Regs.head (r : Regs cfg) : Mshr cfg := mshrAt r.mshrs r.waitIdx

def acceptsRead (s : Machine cfg) (c : Cycle cfg) : Bool := s.regs.arPacket.arValid && c.arReady

def acceptsWriteAddr (s : Machine cfg) (c : Cycle cfg) : Bool :=
  s.regs.awPacket.awValid && c.awReady

def acceptsWriteLine (s : Machine cfg) (c : Cycle cfg) : Bool := s.regs.wPacket.wValid && c.wReady

namespace Dram

def idle : Dram := ⟨[], 0, 0⟩

def answered (g : Dram) (c : Cycle cfg) : Dram where
  reads := if c.rPacket.rValid then g.reads.tail else g.reads
  writeAddrs := if c.bPacket.bValid then g.writeAddrs - 1 else g.writeAddrs
  writeLines := if c.bPacket.bValid then g.writeLines - 1 else g.writeLines

def step (g : Dram) (s : Machine cfg) (c : Cycle cfg) : Dram where
  reads := (g.answered c).reads ++ if acceptsRead s c then [s.regs.arPacket.arAddr] else []
  writeAddrs := (g.answered c).writeAddrs + (acceptsWriteAddr s c).toNat
  writeLines := (g.answered c).writeLines + (acceptsWriteLine s c).toNat

/-- The answers of a cycle are the ones due, with the contents of `memory`. -/
def Answers (g : Dram) (memory : Addr → CacheLine) (c : Cycle cfg) : Prop :=
  (c.rPacket.rValid = true → g.reads.head?.map memory = some c.rPacket.rData) ∧
  (c.bPacket.bValid = true → 0 < g.writeAddrs ∧ 0 < g.writeLines)

instance (memory : Addr → CacheLine) (g : Dram) (c : Cycle cfg) : Decidable (g.Answers memory c) :=
  instDecidableAnd

abbrev run (s : Machine cfg) (input : Nat → Cycle cfg) : Nat → Dram :=
  Clocked.history Machine.step step idle s input

end Dram

end MultiCoreL2Cache
