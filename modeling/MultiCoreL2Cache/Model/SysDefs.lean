import Mathlib.Data.BitVec
import Mathlib.Data.Fintype.Basic

/-!
# Parameters and packets

The `define`s of `sys_defs.svh` and its packed structs. The three parameters a user is invited to
change are fields of `Config`; the derived macros are computed from them as the header computes them.
-/

namespace MultiCoreL2Cache

def clog2 (n : Nat) : Nat := if n ≤ 1 then 0 else Nat.log2 (n - 1) + 1

structure Config where
  numCores : Nat
  ways : Nat
  numMshrs : Nat
  numCores_pos : 0 < numCores
  ways_pos : 0 < ways
  numMshrs_pos : 0 < numMshrs

def Config.shipped : Config where
  numCores := 4
  ways := 8
  numMshrs := 8
  numCores_pos := by decide
  ways_pos := by decide
  numMshrs_pos := by decide

def cacheSizeBytes : Nat := 512000

def lineSizeBytes : Nat := 64

def lineSizeBits : Nat := lineSizeBytes * 8

namespace Config

variable (cfg : Config)

abbrev Core := Fin cfg.numCores

abbrev Way := Fin cfg.ways

instance : NeZero cfg.numCores := ⟨cfg.numCores_pos.ne'⟩

instance : NeZero cfg.ways := ⟨cfg.ways_pos.ne'⟩

def setSizeBytes : Nat := cfg.ways * lineSizeBytes

def numSets : Nat := cacheSizeBytes / cfg.setSizeBytes

abbrev numSetsBits : Nat := clog2 cfg.numSets

/-- The tag that is left beside the set index and the *bit* offset in a line. -/
def l2TagWidth : Nat := 32 - clog2 cfg.numSets - clog2 lineSizeBits

def metaWidth : Nat := 1 + 1 + cfg.numCores + 2 + cfg.l2TagWidth

def wayIdxBits : Nat := clog2 cfg.ways

abbrev Lru := BitVec cfg.wayIdxBits

abbrev SetIdx := BitVec cfg.numSetsBits

end Config

abbrev CacheLine := BitVec 512

abbrev Addr := BitVec 32

def Addr.l2Tag (a : Addr) : BitVec 16 := a.extractLsb' 16 16

/-- `l2_addr.set_idx`, bits 15:6, whatever the number of sets. -/
def Addr.l2SetIdx (a : Addr) : BitVec 10 := a.extractLsb' 6 10

def Addr.l2Offset (a : Addr) : BitVec 6 := a.extractLsb' 0 6

/-- `REQ_TYPE_ENUM`. It is three bits wide and names four values; `unnamed` stands for the others,
which no branch of the request `case` matches. -/
inductive ReqType
  | upgrade
  | read
  | write
  | evict
  | unnamed (code : Fin 4)
deriving DecidableEq

def ReqType.toBits : ReqType → BitVec 3
  | .upgrade => 0
  | .read => 1
  | .write => 2
  | .evict => 3
  | .unnamed code => BitVec.ofNat 3 (4 + code)

def ReqType.ofBits (b : BitVec 3) : ReqType :=
  if b = 0 then .upgrade else if b = 1 then .read else if b = 2 then .write else if b = 3 then .evict
  else .unnamed (Fin.ofNat 4 b.toNat)

theorem ReqType.ofBits_toBits (kind : ReqType) : ofBits kind.toBits = kind := by
  cases kind with
  | unnamed code => decide +revert
  | _ => rfl

inductive OwnerState
  | invalid
  | shared
  | exclusive
  | modified
deriving DecidableEq

namespace OwnerState

def toBits : OwnerState → BitVec 2
  | .invalid => 0
  | .shared => 1
  | .exclusive => 2
  | .modified => 3

def ofBits (b : BitVec 2) : OwnerState :=
  if b = 0 then .invalid else if b = 1 then .shared else if b = 2 then .exclusive else .modified

@[simp]
theorem ofBits_toBits (s : OwnerState) : ofBits s.toBits = s := by
  cases s <;> rfl

end OwnerState

structure L2EntryPacket (cfg : Config) where
  reqType : ReqType
  cacheLine : CacheLine
  targetAddr : Addr
  coreId : cfg.Core
deriving DecidableEq

structure L2ExitPacket where
  reqType : BitVec 3
  cacheLine : CacheLine
  targetAddr : Addr
  evictConfirm : Bool
  upgradeConfirm : Bool
  stall : Bool
deriving DecidableEq

structure AddressReadPacket where
  arAddr : Addr
  arValid : Bool
  arProt : BitVec 3
deriving DecidableEq

structure ReadDataPacket where
  rData : CacheLine
  rValid : Bool
  rResp : Bool
deriving DecidableEq

structure AddressWritePacket where
  awAddr : Addr
  awValid : Bool
  awProt : BitVec 3
deriving DecidableEq

structure WriteDataPacket where
  wData : CacheLine
  wValid : Bool
  wStrb : BitVec 64
deriving DecidableEq

structure WriteResponsePacket where
  bResp : Bool
  bValid : Bool
deriving DecidableEq

structure MetaPacket (cfg : Config) where
  valid : Bool
  dirty : Bool
  sharers : BitVec cfg.numCores
  ownerState : OwnerState
  addr : Addr
deriving DecidableEq

structure SnoopReqPacket (cfg : Config) where
  valid : Bool
  addr : Addr
  coreId : cfg.Core
  ownerState : OwnerState
deriving DecidableEq

structure SnoopRespPacket (cfg : Config) where
  valid : Bool
  addr : Addr
  data : CacheLine
  coreId : cfg.Core
deriving DecidableEq

structure Mshr (cfg : Config) where
  valid : Bool
  addr : Addr
  data : CacheLine
  coreId : cfg.Core
  writeReq : Bool
deriving DecidableEq

/-! Assigning `0` to a packed struct clears every field. -/

def L2ExitPacket.zero : L2ExitPacket := ⟨0, 0#512, 0, false, false, false⟩

def AddressReadPacket.zero : AddressReadPacket := ⟨0, false, 0⟩

def AddressWritePacket.zero : AddressWritePacket := ⟨0, false, 0⟩

def WriteDataPacket.zero : WriteDataPacket := ⟨0#512, false, 0⟩

def SnoopReqPacket.zero (cfg : Config) : SnoopReqPacket cfg := ⟨false, 0, 0, .invalid⟩

def Mshr.zero (cfg : Config) : Mshr cfg := ⟨false, 0, 0#512, 0, false⟩

namespace MetaPacket

variable {cfg : Config}

/-- The packed layout, first member in the most significant bits. -/
def toBits (p : MetaPacket cfg) : BitVec (1 + 1 + cfg.numCores + 2 + 32) :=
  BitVec.ofBool p.valid ++ BitVec.ofBool p.dirty ++ p.sharers ++ p.ownerState.toBits ++ p.addr

def ofBits (b : BitVec (1 + 1 + cfg.numCores + 2 + 32)) : MetaPacket cfg where
  valid := b.getLsbD (1 + cfg.numCores + 2 + 32)
  dirty := b.getLsbD (cfg.numCores + 2 + 32)
  sharers := b.extractLsb' (2 + 32) cfg.numCores
  ownerState := OwnerState.ofBits (b.extractLsb' 32 2)
  addr := b.extractLsb' 0 32

end MetaPacket

end MultiCoreL2Cache
