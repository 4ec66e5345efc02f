import MultiCoreL2Cache.Model.PacketCodec
import MultiCoreL2Cache.Model.Stimulus

/-!
# Sequences

What `cache_base_seq` and `dirty_evict_set_seq` send. A draw of `$urandom` is an argument. The numbers
are `int unsigned`, so the weights are added and compared modulo `2 ^ 32`.
-/

namespace MultiCoreL2Cache

variable {cfg : Config}

def makeAddr (tag : BitVec 16) (set : cfg.SetIdx) (off : BitVec 6) : Addr :=
  tag ++ set.setWidth 10 ++ off

/-- The user-configurable knobs. -/
structure Knobs (cfg : Config) where
  numTxns : BitVec 32
  useFixedCore : Bool
  fixedCoreId : BitVec 32
  rdWeight : BitVec 32
  wrWeight : BitVec 32
  evictWeight : BitVec 32
  upgradeWeight : BitVec 32
  useFixedSet : Bool
  fixedSet : cfg.SetIdx
  useFixedTag : Bool
  fixedTag : BitVec 16

namespace Knobs

variable (k : Knobs cfg)

/-- The constraint `c_defaults`. -/
structure Defaults : Prop where
  numTxns : 1 ≤ k.numTxns ∧ k.numTxns ≤ 1000
  rdWeight : k.rdWeight ≤ 100
  wrWeight : k.wrWeight ≤ 100
  evictWeight : k.evictWeight ≤ 100
  upgradeWeight : k.upgradeWeight ≤ 100

/-- What the constructor sets. -/
def new (cfg : Config) : Knobs cfg where
  numTxns := 100
  useFixedCore := false
  fixedCoreId := 0
  rdWeight := 60
  wrWeight := 20
  evictWeight := 10
  upgradeWeight := 10
  useFixedSet := false
  fixedSet := 0
  useFixedTag := false
  fixedTag := 0

def total : BitVec 32 := k.rdWeight + k.wrWeight + k.evictWeight + k.upgradeWeight

/-- `r` is drawn below `total`. Without any weight there is no draw. -/
def chooseKind (r : BitVec 32) : ReqType :=
  if k.total = 0 then .read
  else if r < k.rdWeight then .read
  else if r < k.rdWeight + k.wrWeight then .write
  else if r < k.rdWeight + k.wrWeight + k.evictWeight then .evict
  else .upgrade

def chooseAddr (set tag : BitVec 32) : Addr :=
  let setSel := if k.useFixedSet then k.fixedSet else set.setWidth cfg.numSetsBits
  let tagSel := if k.useFixedTag then k.fixedTag else tag.setWidth 16
  makeAddr tagSel setSel 0

end Knobs

/-- Each word is `(i ^ a.addr) + k`, in 32 bits. -/
def makeWdata (i : BitVec 32) (a : Addr) : CacheLine :=
  chunkStarts.foldl (fun line k => setChunk line k ((i ^^^ a) + BitVec.ofNat 32 k)) 0#512

/-- The draws for one transaction of `body`. -/
structure Draws where
  kind : BitVec 32
  set : BitVec 32
  tag : BitVec 32

/-- The constraints of the `randomize` in `body`, with that of the class, for transaction `i`. -/
structure Knobs.Allows (k : Knobs cfg) (i : BitVec 32) (draws : Draws) (req : CachePacket cfg) :
    Prop where
  aligned : req.LineAligned
  reqType : req.reqType = k.chooseKind draws.kind
  coreId : k.useFixedCore = true → req.coreId.val = k.fixedCoreId.toNat
  addr : req.addr = k.chooseAddr draws.set draws.tag
  wdata : req.wdata = makeWdata i (k.chooseAddr draws.set draws.tag)

/-- `body` hands these transactions to the driver, one after another. -/
structure Knobs.Sends (k : Knobs cfg) (reqs : List (CachePacket cfg)) : Prop where
  length : reqs.length = k.numTxns.toNat
  randomized : ∀ i (hi : i < reqs.length), ∃ draws before,
    (k.total ≠ 0 → draws.kind < k.total) ∧
      Randomizes (k.Allows (BitVec.ofNat 32 i) draws) before reqs[i]

/-- The calls in the body of `dirty_evict_set_seq`. -/
def dirtyEvictSetSeq (setX : cfg.SetIdx) : List LineCall :=
  (List.range (cfg.ways + 2)).map fun i =>
    let a := makeAddr (0x1000 + BitVec.ofNat 16 i) setX 0
    .doWriteLine a (makeWdata (BitVec.ofNat 32 i) a) 1

end MultiCoreL2Cache
