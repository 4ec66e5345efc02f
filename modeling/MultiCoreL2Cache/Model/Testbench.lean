import MultiCoreL2Cache.Model.Clock

/-!
# The test bench

`cache_driver` puts transactions on the bus, `cache_monitor` turns what it samples into packets for
the scoreboard and events of the memory channels, and `cache_scoreboard` compares the packets with
the lines it expects. The scoreboard is connected to `ap_l1`; nothing connects it to the driver.
-/

namespace MultiCoreL2Cache

variable {cfg : Config}

/-- The stimulus fields of `cache_packet`. -/
structure CachePacket (cfg : Config) where
  reqType : ReqType
  addr : Addr
  coreId : cfg.Core
  wdata : CacheLine
deriving DecidableEq

/-- The packet `p` that `cache_driver.run_phase` drives for a transaction. -/
def CachePacket.toEntryPacket (req : CachePacket cfg) : L2EntryPacket cfg where
  reqType := req.reqType
  cacheLine := if req.reqType = .write then req.wdata else 0#512
  targetAddr := req.addr
  coreId := req.coreId

/-! ### `cache_monitor` -/

/-- What `cache_monitor.run_phase` samples at a clock edge. -/
structure MonitorBus (cfg : Config) where
  l2ExitValid : cfg.Core → Logic
  l2ExitPacket : cfg.Core → L2ExitPacket
  arPacket : AddressReadPacket
  arReady : Bool
  rPacket : ReadDataPacket
  rReady : Logic
  awPacket : AddressWritePacket
  awReady : Bool
  wPacket : WriteDataPacket
  wReady : Bool
  bPacket : WriteResponsePacket
  bReady : Logic

inductive MemChan
  | ar
  | r
  | aw
  | w
  | b
deriving DecidableEq

/-- A `mem_txn`; its constructor clears the address and the data. -/
structure MemTxn where
  chan : MemChan
  addr : Addr
  data : CacheLine
deriving DecidableEq

/-- What the interface shows at the clock edge of cycle `c`. -/
def Machine.bus (s : Machine cfg) (c : Cycle cfg) : MonitorBus cfg where
  l2ExitValid := MultiCoreL2Cache.l2ExitValid
  l2ExitPacket := s.regs.l2ExitPacket
  arPacket := s.regs.arPacket
  arReady := c.arReady
  rPacket := c.rPacket
  rReady := MultiCoreL2Cache.rReady
  awPacket := s.regs.awPacket
  awReady := c.awReady
  wPacket := s.regs.wPacket
  wReady := c.wReady
  bPacket := c.bPacket
  bReady := MultiCoreL2Cache.bReady

namespace MonitorBus

def reply (bus : MonitorBus cfg) (core : cfg.Core) : CachePacket cfg where
  reqType := .read
  addr := (bus.l2ExitPacket core).targetAddr
  coreId := core
  wdata := (bus.l2ExitPacket core).cacheLine

/-- The packets written to `ap_l1`. A valid bit that is `x` is not true. -/
def apL1 (bus : MonitorBus cfg) : List (CachePacket cfg) :=
  ((List.finRange cfg.numCores).filter fun core => bus.l2ExitValid core = .one).map bus.reply

def apMem (bus : MonitorBus cfg) : List MemTxn :=
  (if bus.arPacket.arValid ∧ bus.arReady then [⟨.ar, bus.arPacket.arAddr, 0#512⟩] else []) ++
  (if bus.rPacket.rValid ∧ bus.rReady = .one then [⟨.r, 0, bus.rPacket.rData⟩] else []) ++
  (if bus.awPacket.awValid ∧ bus.awReady then [⟨.aw, bus.awPacket.awAddr, 0#512⟩] else []) ++
  (if bus.wPacket.wValid ∧ bus.wReady then [⟨.w, 0, bus.wPacket.wData⟩] else []) ++
  (if bus.bPacket.bValid ∧ bus.bReady = .one then [⟨.b, 0, 0#512⟩] else [])

end MonitorBus

/-! ### `cache_scoreboard` -/

inductive Report
  | dataMismatch (a : Addr)
  | dataMatch (a : Addr)
deriving DecidableEq

/-- The format `%08h`. -/
def hex8 (a : Addr) : String := String.ofList (List.leftpad 8 '0' (Nat.toDigits 16 a.toNat))

def Report.message : Report → String
  | .dataMismatch a => "DATA MISMATCH a=0x" ++ hex8 a ++ " exp!=got"
  | .dataMatch a => "DATA MATCH a=0x" ++ hex8 a

structure Scoreboard where
  expMem : Addr → Option CacheLine

namespace Scoreboard

def new : Scoreboard := ⟨fun _ => none⟩

def write (scb : Scoreboard) (tr : CachePacket cfg) : Report :=
  let a := tr.addr
  let expected := (scb.expMem a).getD 0#512
  if tr.wdata ≠ expected then .dataMismatch a else .dataMatch a

def noteWrite (scb : Scoreboard) (addr : Addr) (data : CacheLine) : Scoreboard :=
  { scb with expMem := Function.update scb.expMem addr (some data) }

end Scoreboard

/-! ### Histories -/

/-- One action of the bench: a transaction is driven, or the bus is sampled. -/
inductive Event (cfg : Config)
  | drives (req : CachePacket cfg)
  | samples (bus : MonitorBus cfg)

/-- The scoreboard after an action, and the reports made in it, each with its packet. -/
def Scoreboard.step (scb : Scoreboard) : Event cfg → Scoreboard × List (CachePacket cfg × Report)
  | .drives _ => (scb, [])
  | .samples bus => (scb, bus.apL1.map fun tr => (tr, scb.write tr))

def Scoreboard.after (past : List (Event cfg)) : Scoreboard :=
  past.foldl (fun scb event => (scb.step event).1) .new

def reports (past : List (Event cfg)) (bus : MonitorBus cfg) : List (CachePacket cfg × Report) :=
  ((Scoreboard.after past).step (.samples bus)).2

end MultiCoreL2Cache
