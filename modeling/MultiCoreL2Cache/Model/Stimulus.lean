import Mathlib.Logic.Relation
import MultiCoreL2Cache.Model.Testbench

/-!
# Directed stimulus

The tasks of `cache_base_seq` that send one line, and the way of their packets through `cache_driver`
to the bus. A sequence waits in `finish_item` until the driver is done with its packet.
-/

namespace MultiCoreL2Cache

variable {cfg : Config}

/-! ### `cache_base_seq` -/

inductive LineCall
  | doReadLine (a : Addr) (core : Nat)
  | doWriteLine (a : Addr) (w : CacheLine) (core : Nat)
  | doUpgradeLine (a : Addr) (core : Nat)
  | doEvictLine (a : Addr) (w : CacheLine) (core : Nat)
deriving DecidableEq

structure SendOne where
  kind : ReqType
  a : Addr
  w : CacheLine
  core : Nat
deriving DecidableEq

def LineCall.sendOne : LineCall → SendOne
  | .doReadLine a core => ⟨.read, a, 0#512, core⟩
  | .doWriteLine a w core => ⟨.write, a, w, core⟩
  | .doUpgradeLine a core => ⟨.upgrade, a, 0#512, core⟩
  | .doEvictLine a w core => ⟨.evict, a, w, core⟩

/-- The constraint `c_line_aligned`. -/
def CachePacket.LineAligned (req : CachePacket cfg) : Prop := req.addr.l2Offset = 0

/-- The constraints of the `randomize` in `send_one`, with that of the class. -/
structure SendOne.Allows (args : SendOne) (req : CachePacket cfg) : Prop where
  aligned : req.LineAligned
  reqType : req.reqType = args.kind
  coreId : req.coreId.val = args.core
  addr : req.addr = args.a
  wdata : req.wdata = args.w

/-- `randomize` finds some solution of its constraints; where there is none it fails and leaves the
packet as it was. -/
inductive Randomizes (Allows : CachePacket cfg → Prop) (before : CachePacket cfg) :
    CachePacket cfg → Prop
  | solved {req : CachePacket cfg} (hallows : Allows req) : Randomizes Allows before req
  | failed (hnone : ∀ req, ¬Allows req) : Randomizes Allows before before

/-! ### The sequence and the driver -/

/-- Where `cache_driver.run_phase` is: in `get_next_item`, or before the first or the second clock edge
of a transaction. -/
inductive DriverState (cfg : Config)
  | waiting
  | holds (req : CachePacket cfg)
  | driving

/-- The calls that are left, the driver, and the packets that it has put on the bus. -/
structure Stimulus (cfg : Config) where
  calls : List LineCall
  driver : DriverState cfg
  driven : List (L2EntryPacket cfg)

namespace Stimulus

inductive Step : Stimulus cfg → Stimulus cfg → Prop
  /-- `send_one` up to the wait in `finish_item`; an error of `randomize` is reported only. -/
  | send {call : LineCall} {calls : List LineCall} {driven : List (L2EntryPacket cfg)}
      {before req : CachePacket cfg} (hreq : Randomizes call.sendOne.Allows before req) :
      Step ⟨call :: calls, .waiting, driven⟩ ⟨calls, .holds req, driven⟩
  | drive {calls : List LineCall} {driven : List (L2EntryPacket cfg)} {req : CachePacket cfg} :
      Step ⟨calls, .holds req, driven⟩ ⟨calls, .driving, driven ++ [req.toEntryPacket]⟩
  | itemDone {calls : List LineCall} {driven : List (L2EntryPacket cfg)} :
      Step ⟨calls, .driving, driven⟩ ⟨calls, .waiting, driven⟩

/-- The calls return one after another, and these are the packets driven meanwhile. -/
def Drives (calls : List LineCall) (packets : List (L2EntryPacket cfg)) : Prop :=
  Relation.ReflTransGen Step ⟨calls, .waiting, []⟩ ⟨[], .waiting, packets⟩

end Stimulus

end MultiCoreL2Cache
