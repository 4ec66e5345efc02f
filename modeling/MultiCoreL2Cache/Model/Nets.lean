import MultiCoreL2Cache.Model.SysDefs

/-!
# Registers, nets and inputs of `L2Cache`

Everything `always_ff` assigns is a register (`Regs`); everything only `always_comb` assigns is a net
(`Nets`). A net that the block does not assign on some path keeps its value, so the nets of one cycle
are an input of the next evaluation. A net or port that nothing drives holds `x`; where such a value
can be stored, it is any value, supplied by the cycle (`Undriven`).
-/

namespace MultiCoreL2Cache

/-- The clocked registers. The `next_` nets of the block have the same members. -/
@[ext]
structure Regs (cfg : Config) where
  l2ExitPacket : cfg.Core → L2ExitPacket
  snoopReq : cfg.Core → SnoopReqPacket cfg
  mshrs : Fin cfg.numMshrs → Mshr cfg
  freeIdx : BitVec 3
  waitIdx : BitVec 3
  awPacket : AddressWritePacket
  wPacket : WriteDataPacket
  arPacket : AddressReadPacket
  lrus : Fin cfg.numSets → cfg.Way → cfg.Lru

def Regs.reset (cfg : Config) : Regs cfg where
  l2ExitPacket _ := .zero
  snoopReq _ := .zero cfg
  mshrs _ := .zero cfg
  freeIdx := 0
  waitIdx := 0
  awPacket := .zero
  wPacket := .zero
  arPacket := .zero
  lrus _ way := BitVec.ofNat _ way

@[ext]
structure Nets (cfg : Config) where
  waiting : Bool
  mshrExists : Bool
  readEn : cfg.Way → Bool
  readAddr : cfg.Way → cfg.SetIdx
  writeEn : cfg.Way → Bool
  writeAddr : cfg.Way → cfg.SetIdx
  nextWriteData : cfg.Way → CacheLine
  readMetaEn : cfg.Way → Bool
  readMetaAddr : cfg.Way → cfg.SetIdx
  writeMetaEn : cfg.Way → Bool
  writeMetaAddr : cfg.Way → cfg.SetIdx
  nextWriteMeta : cfg.Way → MetaPacket cfg
  next : Regs cfg

structure Inputs (cfg : Config) where
  reset : Bool
  l2EntryPacket : L2EntryPacket cfg
  snoopResp : cfg.Core → SnoopRespPacket cfg
  arReady : Bool
  rPacket : ReadDataPacket
  awReady : Bool
  wReady : Bool
  bPacket : WriteResponsePacket

/-- `write_data` and `write_meta` are connected to the memories and assigned nowhere. The last two
are what a memory read outside its depth returns. -/
structure Undriven (cfg : Config) where
  writeData : cfg.Way → CacheLine
  writeMeta : cfg.Way → MetaPacket cfg
  dataX : CacheLine
  tagX : BitVec cfg.metaWidth

structure Drive (cfg : Config) extends Inputs cfg, Undriven cfg

structure WayPorts (cfg : Config) where
  readData : cfg.Way → CacheLine
  readMeta : cfg.Way → MetaPacket cfg

/-- All the block reads in one cycle besides registers and its own nets. -/
structure Cycle (cfg : Config) extends Drive cfg, WayPorts cfg

/-! The idle bus of `tb_initial`, and memories that present nothing. The all-zero entry packet is an
UPGRADE of address 0 by core 0. -/

variable {cfg : Config}

def L2EntryPacket.zero (cfg : Config) : L2EntryPacket cfg := ⟨.upgrade, 0#512, 0, 0⟩

def Inputs.idle (cfg : Config) : Inputs cfg where
  reset := false
  l2EntryPacket := .zero cfg
  snoopResp _ := ⟨false, 0, 0#512, 0⟩
  arReady := false
  rPacket := ⟨0#512, false, false⟩
  awReady := false
  wReady := false
  bPacket := ⟨false, false⟩

def MetaPacket.zero (cfg : Config) : MetaPacket cfg := ⟨false, false, 0, .invalid, 0⟩

def Drive.idle (cfg : Config) : Drive cfg where
  toInputs := .idle cfg
  writeData _ := 0#512
  writeMeta _ := .zero cfg
  dataX := 0#512
  tagX := 0

def Drive.request (kind : ReqType) (addr : Addr) (core : cfg.Core) : Drive cfg :=
  { Drive.idle cfg with
    l2EntryPacket := { reqType := kind, cacheLine := 0#512, targetAddr := addr, coreId := core } }

def Drive.response (cfg : Config) (line : CacheLine) : Drive cfg :=
  { Drive.idle cfg with rPacket := { rData := line, rValid := true, rResp := false } }

def Cycle.idle (cfg : Config) : Cycle cfg where
  toDrive := .idle cfg
  readData _ := 0#512
  readMeta _ := .zero cfg

/-- Nets that were never assigned, which in the source are `x`. -/
def Nets.zero (cfg : Config) : Nets cfg where
  waiting := false
  mshrExists := false
  readEn _ := false
  readAddr _ := 0
  writeEn _ := false
  writeAddr _ := 0
  nextWriteData _ := 0#512
  readMetaEn _ := false
  readMetaAddr _ := 0
  writeMetaEn _ := false
  writeMetaAddr _ := 0
  nextWriteMeta _ := .zero cfg
  next := .reset cfg

/-- A value of an output port in simulation. -/
inductive Logic
  | zero
  | one
  | x
deriving DecidableEq

/-! No statement of the module assigns these three output ports. -/

def l2ExitValid {cfg : Config} (_core : cfg.Core) : Logic := .x

def rReady : Logic := .x

def bReady : Logic := .x

end MultiCoreL2Cache
