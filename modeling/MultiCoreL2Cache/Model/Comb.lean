import MultiCoreL2Cache.Library.Packed
import MultiCoreL2Cache.Model.Nets

/-!
# The combinational block of `L2Cache`

`comb` is the `always_comb` block, section by section in source order. Each section takes the nets as
the sections before it left them.
-/

namespace MultiCoreL2Cache

open Packed

variable {cfg : Config}

/-! ### Shared expressions -/

/-- `mshrs[idx]`. An index outside the array selects no valid entry. -/
def mshrAt (mshrs : Fin cfg.numMshrs → Mshr cfg) (idx : BitVec 3) : Mshr cfg :=
  (select? mshrs idx.toNat).getD (.zero cfg)

/-- `(idx + 1) % n`, cut to the three bits of the pointer it is assigned to. -/
def advance (n : Nat) (idx : BitVec 3) : BitVec 3 := BitVec.ofNat 3 ((idx.toNat + 1) % n)

/-- `1 << core` at the width of `sharers`. -/
def oneHot (core : cfg.Core) : BitVec cfg.numCores := BitVec.twoPow cfg.numCores core

def hit (c : Cycle cfg) (w : cfg.Way) : Bool :=
  (c.readMeta w).valid && (c.readMeta w).addr.l2Tag == c.l2EntryPacket.targetAddr.l2Tag

def hitAny (c : Cycle cfg) : Bool := decide (∃ w, hit c w = true)

/-- `winner` in the search for the hit way. -/
def hitWay (c : Cycle cfg) : cfg.Way := (lastIndex (hit c)).getD 0

/-- The set of the head MSHR's address, where `lrus` has it. -/
def headSet (r : Regs cfg) : Option (Fin cfg.numSets) :=
  let setIdx := (mshrAt r.mshrs r.waitIdx).addr.l2SetIdx
  if h : r.waitIdx.toNat < cfg.numMshrs ∧ setIdx.toNat < cfg.numSets then some ⟨setIdx.toNat, h.2⟩
  else none

/-- `lrus[set][i] == 0`; the comparison with a set that does not exist is not true. -/
def lruIsZero (r : Regs cfg) (i : cfg.Way) : Bool :=
  match headSet r with
  | some set => r.lrus set i == 0
  | none => false

/-- `winner` in the search for the least recently used way. -/
def lruWay (r : Regs cfg) : cfg.Way := (lastIndex (lruIsZero r)).getD 0

/-- `target_core`; its `-1` is `none`. -/
def targetCore (p : MetaPacket cfg) : Option cfg.Core :=
  lastIndex fun core => p.sharers.getLsbD core

/-- `snoop_resp[target_core].valid && (snoop_resp[target_core].addr == addr)` -/
def snoopAnswers (c : Cycle cfg) (target : Option cfg.Core) (addr : Addr) : Bool :=
  match target with
  | some core => (c.snoopResp core).valid && (c.snoopResp core).addr == addr
  | none => false

/-- `snoop_resp[core].valid` for a core number written in the source. -/
def respValid (c : Cycle cfg) (core : Nat) : Bool :=
  match select? c.snoopResp core with
  | some resp => resp.valid
  | none => false

def allBack (c : Cycle cfg) : Bool :=
  respValid c 0 && respValid c 1 && respValid c 2 && respValid c 3

def Nets.raiseSnoop (n : Nets cfg) (core : cfg.Core) (addr : Addr) (state : OwnerState) :
    Nets cfg :=
  let req := { n.next.snoopReq core with valid := true, addr := addr, ownerState := state }
  { n with next := { n.next with snoopReq := Function.update n.next.snoopReq core req } }

/-- The three assignments to `next_snoop_req[target_core]`, lost when `target_core` is `-1`. -/
def Nets.raiseSnoopAt (n : Nets cfg) (target : Option cfg.Core) (addr : Addr)
    (state : OwnerState) : Nets cfg :=
  match target with
  | some core => n.raiseSnoop core addr state
  | none => n

def Nets.raiseSnoopAll (n : Nets cfg) (addr : Addr) (state : OwnerState) : Nets cfg :=
  (List.finRange cfg.numCores).foldl (fun n core => n.raiseSnoop core addr state) n

def Nets.setLine (n : Nets cfg) (core : cfg.Core) (line : CacheLine) : Nets cfg :=
  let packet := { n.next.l2ExitPacket core with cacheLine := line }
  { n with next := { n.next with l2ExitPacket := Function.update n.next.l2ExitPacket core packet } }

def Nets.setStall (n : Nets cfg) (core : cfg.Core) : Nets cfg :=
  let packet := { n.next.l2ExitPacket core with stall := true }
  { n with next := { n.next with l2ExitPacket := Function.update n.next.l2ExitPacket core packet } }

def Nets.setMeta (n : Nets cfg) (w : cfg.Way) (p : MetaPacket cfg) : Nets cfg :=
  { n with nextWriteMeta := Function.update n.nextWriteMeta w p }

/-- `next_mshrs[wait_idx].valid = 1'b0` -/
def retire (mshrs : Fin cfg.numMshrs → Mshr cfg) (idx : BitVec 3) : Fin cfg.numMshrs → Mshr cfg :=
  assign mshrs idx.toNat fun entry => { entry with valid := false }

/-! ### Defaults -/

/-- `waiting`, `mshr_exists`, the addresses and `next_write_*` have no default. -/
def defaults (r : Regs cfg) (n : Nets cfg) : Nets cfg :=
  { n with
    readEn := fun _ => false
    readMetaEn := fun _ => false
    writeEn := fun _ => false
    writeMetaEn := fun _ => false
    next := r }

/-! ### Signals from DRAM -/

def writeResponse (r : Regs cfg) (c : Cycle cfg) (n : Nets cfg) : Nets cfg :=
  if c.bPacket.bValid then
    { n with
      next := { n.next with
        mshrs := retire n.next.mshrs r.waitIdx
        waitIdx := advance cfg.ways r.waitIdx } }
  else n

def touchLru (r : Regs cfg) (winner : cfg.Way) (lrus : Fin cfg.numSets → cfg.Way → cfg.Lru) :
    Fin cfg.numSets → cfg.Way → cfg.Lru :=
  match headSet r with
  | some set =>
      Function.update lrus set fun i =>
        if i = winner then BitVec.ofNat _ (cfg.ways - 1) else lrus set i - 1
  | none => lrus

def victimModified (c : Cycle cfg) (winner : cfg.Way) : Bool :=
  (c.readMeta winner).valid && (c.readMeta winner).ownerState == .modified

def victimDirty (c : Cycle cfg) (winner : cfg.Way) : Bool :=
  (c.readMeta winner).valid && (c.readMeta winner).dirty

def writeBack (r : Regs cfg) (addr : Addr) (data : CacheLine) (core : cfg.Core) (n : Nets cfg) :
    Nets cfg :=
  { n with
    next := { n.next with
      mshrs := assign n.next.mshrs r.freeIdx.toNat fun _ =>
        { valid := true, addr := addr, data := data, coreId := core, writeReq := true }
      freeIdx := advance cfg.numMshrs r.freeIdx } }

/-- Some L1 has a dirty version of the line being evicted. -/
def evictModified (r : Regs cfg) (c : Cycle cfg) (winner : cfg.Way) (n : Nets cfg) : Nets cfg :=
  let p := c.readMeta winner
  let target := targetCore p
  let n := { n with waiting := true }.raiseSnoopAt target p.addr .invalid
  match target with
  | some core =>
      let resp := c.snoopResp core
      if resp.valid && resp.addr == p.addr then
        writeBack r resp.addr resp.data resp.coreId { n with waiting := false }
      else n
  | none => n

/-- The L2 is dirty but has the most updated copy. -/
def evictDirty (r : Regs cfg) (c : Cycle cfg) (winner : cfg.Way) (n : Nets cfg) : Nets cfg :=
  let p := c.readMeta winner
  let n := { n with waiting := true }.raiseSnoopAll p.addr .invalid
  if allBack c then writeBack r p.addr (c.readData winner) 0 { n with waiting := false } else n

def evictVictim (r : Regs cfg) (c : Cycle cfg) (winner : cfg.Way) (n : Nets cfg) : Nets cfg :=
  if victimModified c winner then evictModified r c winner n
  else if victimDirty c winner then evictDirty r c winner n
  else n

def refill (r : Regs cfg) (c : Cycle cfg) (n : Nets cfg) : Nets cfg :=
  if c.rPacket.rValid then
    let winner := lruWay r
    let n := { n with
      next := { n.next with
        mshrs := retire n.next.mshrs r.waitIdx
        lrus := touchLru r winner n.next.lrus } }
    let n := evictVictim r c winner n
    let setIdx := (mshrAt r.mshrs r.waitIdx).addr.l2SetIdx.setWidth cfg.numSetsBits
    { n with
      writeEn := Function.update n.writeEn winner true
      readMetaEn := Function.update n.readMetaEn winner true
      writeAddr := Function.update n.writeAddr winner setIdx
      nextWriteData := Function.update n.nextWriteData winner c.rPacket.rData
      writeMetaAddr := Function.update n.writeMetaAddr winner setIdx
      next := { n.next with waitIdx := advance cfg.numMshrs r.waitIdx } }
  else n

/-! ### L1 communication -/

/-- `read_en`, `read_meta_en` and their addresses on a hit. -/
def lookUp (c : Cycle cfg) (winner : cfg.Way) (n : Nets cfg) : Nets cfg :=
  let setIdx := c.l2EntryPacket.targetAddr.l2SetIdx.setWidth cfg.numSetsBits
  { n with
    readEn := Function.update n.readEn winner true
    readMetaEn := Function.update n.readMetaEn winner true
    readAddr := Function.update n.readAddr winner setIdx
    readMetaAddr := Function.update n.readMetaAddr winner setIdx }

def modifiedElsewhere (c : Cycle cfg) (winner : cfg.Way) : Bool :=
  (c.readMeta winner).ownerState == .modified &&
    (c.readMeta winner).sharers != oneHot c.l2EntryPacket.coreId

def mshrMatch (r : Regs cfg) (c : Cycle cfg) : Bool :=
  decide (∃ i, (r.mshrs i).addr = c.l2EntryPacket.targetAddr)

/-- The L2 miss. The READ and the WRITE branch hold the same statements. -/
def miss (r : Regs cfg) (c : Cycle cfg) (n : Nets cfg) : Nets cfg :=
  let entry := c.l2EntryPacket
  let n := if mshrMatch r c then { n with mshrExists := true } else n
  if n.mshrExists then n.setStall entry.coreId
  else if (mshrAt r.mshrs r.freeIdx).valid then n.setStall entry.coreId
  else
    { n with
      next := { n.next with
        mshrs := assign n.next.mshrs r.freeIdx.toNat fun m =>
          { m with
            valid := true
            addr := entry.targetAddr
            coreId := entry.coreId
            writeReq := entry.reqType == .write }
        freeIdx := advance cfg.numMshrs r.freeIdx } }

/-- `next_write_data = line`: 512 bits assigned to the whole array land in way 0 and clear the
others. -/
def Nets.setAllData (n : Nets cfg) (line : CacheLine) : Nets cfg :=
  { n with nextWriteData := fun w => if w = 0 then line else 0#512 }

/-- `(1 << core) || sharers`: one bit, set when either operand is not zero. The shift is 32 bits
wide. -/
def logicalOr (core : cfg.Core) (sharers : BitVec cfg.numCores) : BitVec cfg.numCores :=
  if 1#32 <<< core.val ≠ 0 ∨ sharers ≠ 0 then 1 else 0

def readSnoopMeta (c : Cycle cfg) (winner : cfg.Way) : MetaPacket cfg :=
  { c.readMeta winner with
    dirty := false
    ownerState := .shared
    sharers := logicalOr c.l2EntryPacket.coreId (c.writeMeta winner).sharers }

def readMetaUpdate (c : Cycle cfg) (winner : cfg.Way) : MetaPacket cfg :=
  let sharers := (c.readMeta winner).sharers ||| oneHot c.l2EntryPacket.coreId
  { c.readMeta winner with
    sharers := sharers
    ownerState := if sharers = oneHot c.l2EntryPacket.coreId then .exclusive else .shared }

/-- A hit on a line that another core has in MODIFIED: snoop that core, and once it has answered
install the line in the L2 and send it to the requester. READ and WRITE differ in what they put in
the snoop and in the metadata `p` they compute. -/
def snoopHit (c : Cycle cfg) (winner : cfg.Way) (addr : Addr) (state : OwnerState)
    (p : MetaPacket cfg) (n : Nets cfg) : Nets cfg :=
  let target := targetCore (c.readMeta winner)
  let n := { n with waiting := true }.raiseSnoopAt target addr state
  match target with
  | some core =>
      let resp := c.snoopResp core
      if resp.valid && resp.addr == c.l2EntryPacket.targetAddr then
        (({ n with waiting := false }.setAllData resp.data).setMeta winner p).setLine
          c.l2EntryPacket.coreId resp.data
      else n
  | none => n

def readRequest (r : Regs cfg) (c : Cycle cfg) (n : Nets cfg) : Nets cfg :=
  let entry := c.l2EntryPacket
  if hitAny c then
    let winner := hitWay c
    let n := lookUp c winner n
    if modifiedElsewhere c winner then
      -- the address put in the snoop is `l2_entry_packet.req_type`
      snoopHit c winner (entry.reqType.toBits.setWidth 32) .shared (readSnoopMeta c winner) n
    else (n.setLine entry.coreId (c.readData winner)).setMeta winner (readMetaUpdate c winner)
  else miss r c n

def writeSnoopMeta (c : Cycle cfg) (winner : cfg.Way) : MetaPacket cfg :=
  { c.readMeta winner with
    dirty := false
    ownerState := .modified
    sharers := oneHot c.l2EntryPacket.coreId ||| (c.writeMeta winner).sharers }

/-- Write permission without a snoop, the same in WRITE and UPGRADE. -/
def grantMeta (c : Cycle cfg) (winner : cfg.Way) : MetaPacket cfg :=
  let sharers := (c.readMeta winner).sharers ||| oneHot c.l2EntryPacket.coreId
  { c.readMeta winner with
    sharers := sharers
    ownerState := if sharers = oneHot c.l2EntryPacket.coreId then .modified else .invalid }

def grant (c : Cycle cfg) (winner : cfg.Way) (n : Nets cfg) : Nets cfg :=
  ({ n with writeMetaEn := Function.update n.writeMetaEn winner true }.setLine
    c.l2EntryPacket.coreId (c.readData winner)).setMeta winner (grantMeta c winner)

def writeRequest (r : Regs cfg) (c : Cycle cfg) (n : Nets cfg) : Nets cfg :=
  if hitAny c then
    let winner := hitWay c
    let n := lookUp c winner n
    if modifiedElsewhere c winner then
      snoopHit c winner c.l2EntryPacket.targetAddr .invalid (writeSnoopMeta c winner) n
    else grant c winner n
  else miss r c n

/-- Can't be an L2 miss on an upgrade: without a hit the way is 0. -/
def upgradeRequest (c : Cycle cfg) (n : Nets cfg) : Nets cfg := grant c (hitWay c) n

def evictMeta (c : Cycle cfg) (winner : cfg.Way) : MetaPacket cfg :=
  { c.readMeta winner with sharers := 0, dirty := true, ownerState := .invalid }

def evictRequest (c : Cycle cfg) (n : Nets cfg) : Nets cfg :=
  let winner := hitWay c
  { n with
    nextWriteData := Function.update n.nextWriteData winner c.l2EntryPacket.cacheLine
    writeMetaEn := Function.update n.writeMetaEn winner true }.setMeta winner (evictMeta c winner)

def stalled (r : Regs cfg) (c : Cycle cfg) : Bool :=
  (r.l2ExitPacket c.l2EntryPacket.coreId).stall

def request (r : Regs cfg) (c : Cycle cfg) (n : Nets cfg) : Nets cfg :=
  if !stalled r c then
    match c.l2EntryPacket.reqType with
    | .read => readRequest r c n
    | .write => writeRequest r c n
    | .upgrade => upgradeRequest c n
    | .evict => evictRequest c n
    | .unnamed _ => n
  else n

/-! ### Signals to DRAM -/

def issue (r : Regs cfg) (c : Cycle cfg) (n : Nets cfg) : Nets cfg :=
  let head := mshrAt r.mshrs n.next.waitIdx
  if head.valid && head.writeReq then
    let n := if c.awReady then
        { n with next := { n.next with
          awPacket := { awAddr := head.addr, awValid := true, awProt := 0 } } }
      else n
    if c.wReady then
      { n with next := { n.next with
        wPacket := { wData := head.data, wValid := true, wStrb := BitVec.allOnes 64 } } }
    else n
  else if head.valid && !head.writeReq then
    if c.arReady then
      { n with next := { n.next with
        arPacket := { arAddr := head.addr, arValid := true, arProt := 0 } } }
    else n
  else n

/-- One evaluation of the block. `n` holds the nets as the evaluation before it left them. -/
def comb (r : Regs cfg) (c : Cycle cfg) (n : Nets cfg) : Nets cfg :=
  issue r c (request r c (refill r c (writeResponse r c (defaults r n))))

end MultiCoreL2Cache
