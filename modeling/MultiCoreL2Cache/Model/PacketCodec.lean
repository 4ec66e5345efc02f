import MultiCoreL2Cache.Library.BitStream
import MultiCoreL2Cache.Model.SysDefs

/-!
# Packing a `cache_packet`

`do_pack`, `do_unpack` and `do_compare`. The packer is a queue of bits, and the hooks of the
superclass do nothing.
-/

namespace MultiCoreL2Cache

/-- The stimulus fields as the class declares them: `core_id` is any number of its width. -/
structure PackedItem (numCoreBits : Nat) where
  reqType : ReqType
  addr : Addr
  coreId : BitVec numCoreBits
  wdata : CacheLine
deriving DecidableEq

abbrev Packer := StateM (List Bool)

abbrev packFieldInt (value size : Nat) : Packer Unit := BitStream.push value size

abbrev unpackFieldInt (size : Nat) : Packer Nat := BitStream.pop size

/-- `0, 32, 64, …` below `LINE_SIZE_BITS` -/
def chunkStarts : List Nat := (List.range (lineSizeBits / 32)).map (32 * ·)

/-- `line[i +: 32]` -/
def chunkAt (line : CacheLine) (i : Nat) : BitVec 32 := line.extractLsb' i 32

/-- `line[i +: 32] = chunk` -/
def setChunk (line : CacheLine) (i : Nat) (chunk : BitVec 32) : CacheLine :=
  line &&& ~~~((BitVec.allOnes 32).setWidth 512 <<< i) ||| chunk.setWidth 512 <<< i

/-- The body of the loop in `do_unpack`. -/
def unpackChunk (line : CacheLine) (i : Nat) : Packer CacheLine := do
  let chunk ← unpackFieldInt 32
  pure (setChunk line i (BitVec.ofNat 32 chunk))

namespace PackedItem

variable {numCoreBits : Nat}

def addr32 (item : PackedItem numCoreBits) : BitVec 32 := item.addr

def doPack (item : PackedItem numCoreBits) : Packer Unit := do
  packFieldInt item.reqType.toBits.toNat 3
  packFieldInt item.coreId.toNat numCoreBits
  packFieldInt item.addr32.toNat 32
  chunkStarts.forM fun i => packFieldInt (chunkAt item.wdata i).toNat 32

/-- `item` is the packet that the fields are read into. -/
def doUnpack (item : PackedItem numCoreBits) : Packer (PackedItem numCoreBits) := do
  let reqType ← unpackFieldInt 3
  let coreId ← unpackFieldInt numCoreBits
  let addr ← unpackFieldInt 32
  let wdata ← chunkStarts.foldlM unpackChunk item.wdata
  pure
    { reqType := .ofBits (BitVec.ofNat 3 reqType)
      coreId := BitVec.ofNat numCoreBits coreId
      addr := BitVec.ofNat 32 addr
      wdata := wdata }

def doCompare (item other : PackedItem numCoreBits) : Bool :=
  if item.reqType ≠ other.reqType then false
  else if item.coreId ≠ other.coreId then false
  else if item.addr32 ≠ other.addr32 then false
  else if item.wdata ≠ other.wdata then false
  else true

end PackedItem

end MultiCoreL2Cache
