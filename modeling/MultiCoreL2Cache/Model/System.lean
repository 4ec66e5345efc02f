import MultiCoreL2Cache.Model.Clock
import MultiCoreL2Cache.Model.MemDP

/-!
# `L2Cache` with its memories

Each way has a data memory and a tag memory. The tag memory is `META_WIDTH` bits wide, so a packet
is cut to that width when it is written and extended with zeros when it is read.

The block reads what the memories present and drives the enables and addresses they are read with.
In a cycle it is evaluated again for as long as that changes what it reads. The registers and the inputs
stay as they are meanwhile.
-/

namespace MultiCoreL2Cache

open MemDP

structure Arrays (cfg : Config) where
  data : cfg.Way → MemData 512 cfg.numSets
  tags : cfg.Way → MemData cfg.metaWidth cfg.numSets

variable {cfg : Config}

def dataWrite (u : Undriven cfg) (n : Nets cfg) (w : cfg.Way) : WritePort 512 cfg.numSets where
  we := n.writeEn w
  waddr := n.writeAddr w
  wdata := u.writeData w

def tagWrite (u : Undriven cfg) (n : Nets cfg) (w : cfg.Way) :
    WritePort cfg.metaWidth cfg.numSets where
  we := n.writeMetaEn w
  waddr := n.writeMetaAddr w
  wdata := (u.writeMeta w).toBits.setWidth cfg.metaWidth

namespace Arrays

/-- What the memories present while the block drives the nets `n`. -/
def ports (a : Arrays cfg) (u : Undriven cfg) (n : Nets cfg) : WayPorts cfg where
  readData w :=
    (rdata 0 (a.data w) (dataWrite u n w) (n.readEn w) (n.readAddr w)).getD u.dataX
  readMeta w :=
    let word := (rdata 0 (a.tags w) (tagWrite u n w) (n.readMetaEn w) (n.readMetaAddr w)).getD u.tagX
    .ofBits (word.setWidth _)

/-- The memories at a clock edge. No register enable gates them. -/
def edge (a : Arrays cfg) (reset : Bool) (u : Undriven cfg) (n : Nets cfg) : Arrays cfg where
  data w := posedge reset (dataWrite u n w) (a.data w)
  tags w := posedge reset (tagWrite u n w) (a.tags w)

def zero (cfg : Config) : Arrays cfg := ⟨fun _ _ => 0#512, fun _ _ => 0⟩

end Arrays

structure System (cfg : Config) extends Machine cfg where
  arrays : Arrays cfg

namespace System

def cycle (s : System cfg) (d : Drive cfg) (n : Nets cfg) : Cycle cfg where
  toDrive := d
  toWayPorts := s.arrays.ports d.toUndriven n

/-- One evaluation of the block against the ports that the nets `n` select. -/
def eval (s : System cfg) (d : Drive cfg) (n : Nets cfg) : Nets cfg := comb s.regs (s.cycle d n) n

/-- The nets `n` are reached by evaluations and a further one does not change them. -/
def Settles (s : System cfg) (d : Drive cfg) (n : Nets cfg) : Prop :=
  (∃ k, n = (s.eval d)^[k] s.nets) ∧ s.eval d n = n

/-- The nets after two evaluations. `settles_iff` shows that this is where a cycle settles. -/
def settled (s : System cfg) (d : Drive cfg) : Nets cfg := s.eval d (s.eval d s.nets)

def openCycle (s : System cfg) (d : Drive cfg) : Cycle cfg := s.cycle d (s.settled d)

def step (s : System cfg) (d : Drive cfg) : System cfg where
  regs := clocked d.reset s.regs (s.settled d)
  nets := s.settled d
  arrays := s.arrays.edge d.reset d.toUndriven (s.settled d)

abbrev run (s : System cfg) (input : Nat → Drive cfg) : Nat → System cfg :=
  Clocked.run step s input

def cycles (s : System cfg) (input : Nat → Drive cfg) (k : Nat) : Cycle cfg :=
  (s.run input k).openCycle (input k)

def AfterReset (s : System cfg) : Prop := s.regs = .reset cfg ∧ s.arrays = .zero cfg

def fresh (cfg : Config) : System cfg := ⟨Machine.fresh cfg, .zero cfg⟩

end System

end MultiCoreL2Cache
