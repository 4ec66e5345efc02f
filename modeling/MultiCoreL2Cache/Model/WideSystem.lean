import MultiCoreL2Cache.Model.System

/-!
# `L2Cache` with tag memories of any width

`META_WIDTH` cuts the valid bit off every packet that is stored. Here the width of the tag memories
is a parameter, so that a tag memory can hold a valid line; `META_WIDTH` is one of its values. With
hits possible a cycle may settle in more than one way, so a run is given the nets that each cycle
settles in.
-/

namespace MultiCoreL2Cache

open MemDP

variable {cfg : Config} {width : Nat}

structure WideArrays (cfg : Config) (width : Nat) where
  data : cfg.Way → MemData 512 cfg.numSets
  tags : cfg.Way → MemData width cfg.numSets

def wideTagWrite (width : Nat) (u : Undriven cfg) (n : Nets cfg) (w : cfg.Way) :
    WritePort width cfg.numSets where
  we := n.writeMetaEn w
  waddr := n.writeMetaAddr w
  wdata := (u.writeMeta w).toBits.setWidth width

def packetOf (word : BitVec width) : MetaPacket cfg := .ofBits (word.setWidth _)

namespace WideArrays

/-- `Arrays.ports` for the width; `tagX` is what a tag memory returns outside its depth. -/
def ports (a : WideArrays cfg width) (u : Undriven cfg) (tagX : BitVec width) (n : Nets cfg) :
    WayPorts cfg where
  readData w :=
    (rdata 0 (a.data w) (dataWrite u n w) (n.readEn w) (n.readAddr w)).getD u.dataX
  readMeta w :=
    packetOf ((rdata 0 (a.tags w) (wideTagWrite width u n w) (n.readMetaEn w)
      (n.readMetaAddr w)).getD tagX)

def edge (a : WideArrays cfg width) (reset : Bool) (u : Undriven cfg) (n : Nets cfg) :
    WideArrays cfg width where
  data w := posedge reset (dataWrite u n w) (a.data w)
  tags w := posedge reset (wideTagWrite width u n w) (a.tags w)

def ofArrays (a : Arrays cfg) : WideArrays cfg cfg.metaWidth := ⟨a.data, a.tags⟩

end WideArrays

/-- What a cycle brings, and the nets it settles in. -/
structure WideInput (cfg : Config) (width : Nat) where
  drive : Drive cfg
  tagX : BitVec width
  nets : Nets cfg

structure WideSystem (cfg : Config) (width : Nat) extends Machine cfg where
  arrays : WideArrays cfg width

namespace WideSystem

def cycle (s : WideSystem cfg width) (d : Drive cfg) (tagX : BitVec width) (n : Nets cfg) :
    Cycle cfg where
  toDrive := d
  toWayPorts := s.arrays.ports d.toUndriven tagX n

def eval (s : WideSystem cfg width) (d : Drive cfg) (tagX : BitVec width) (n : Nets cfg) :
    Nets cfg := comb s.regs (s.cycle d tagX n) n

/-- The nets of `i` are reached by evaluations and a further one does not change them. -/
def Settles (s : WideSystem cfg width) (i : WideInput cfg width) : Prop :=
  (∃ k, i.nets = (s.eval i.drive i.tagX)^[k] s.nets) ∧ s.eval i.drive i.tagX i.nets = i.nets

def settledCycle (s : WideSystem cfg width) (i : WideInput cfg width) : Cycle cfg :=
  s.cycle i.drive i.tagX i.nets

def step (s : WideSystem cfg width) (i : WideInput cfg width) : WideSystem cfg width where
  regs := clocked i.drive.reset s.regs i.nets
  nets := i.nets
  arrays := s.arrays.edge i.drive.reset i.drive.toUndriven i.nets

abbrev run (s : WideSystem cfg width) (input : Nat → WideInput cfg width) :
    Nat → WideSystem cfg width := Clocked.run step s input

/-- The nets after four evaluations. `settles_iff` shows that this is where a cycle settles. -/
def settled (s : WideSystem cfg width) (d : Drive cfg) (tagX : BitVec width) : Nets cfg :=
  (s.eval d tagX)^[4] s.nets

/-- One cycle in the nets that it settles in. -/
def tick (s : WideSystem cfg width) (i : Drive cfg × BitVec width) : WideSystem cfg width :=
  s.step ⟨i.1, i.2, s.settled i.1 i.2⟩

abbrev ticks (s : WideSystem cfg width) (input : Nat → Drive cfg × BitVec width) :
    Nat → WideSystem cfg width := Clocked.run tick s input

/-! ### The width of the source -/

def ofSystem (s : System cfg) : WideSystem cfg cfg.metaWidth := ⟨s.toMachine, .ofArrays s.arrays⟩

def ofDrive (d : Drive cfg) (n : Nets cfg) : WideInput cfg cfg.metaWidth := ⟨d, d.tagX, n⟩

theorem settles_ofSystem_iff (s : System cfg) (d : Drive cfg) (n : Nets cfg) :
    (ofSystem s).Settles (ofDrive d n) ↔ s.Settles d n := Iff.rfl

theorem step_ofSystem (s : System cfg) (d : Drive cfg) :
    (ofSystem s).step (ofDrive d (s.settled d)) = ofSystem (s.step d) := rfl

end WideSystem

end MultiCoreL2Cache
