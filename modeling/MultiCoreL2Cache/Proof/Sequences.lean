import Mathlib.Data.List.Pairwise
import Mathlib.Order.Interval.Finset.Nat
import MultiCoreL2Cache.Model.Sequences
import MultiCoreL2Cache.Proof.PacketRoundTrip
import MultiCoreL2Cache.Proof.StimulusFidelity

/-!
# What the sequences send

The scoreboard can tell two lines apart only if they differ. A line is made from the exclusive or of its
number and its address, so that two transactions of one sequence carry the same line exactly where
their addresses differ as their numbers do, and never at the same address.
-/

namespace MultiCoreL2Cache

variable {cfg : Config}

/-! ### `choose_kind` -/

namespace Knobs

variable {k : Knobs cfg}

def weight (k : Knobs cfg) : ReqType → BitVec 32
  | .read => k.rdWeight
  | .write => k.wrWeight
  | .evict => k.evictWeight
  | .upgrade => k.upgradeWeight
  | .unnamed _ => 0

/-- The draws that choose a kind lie between those for the kinds before it and those after. -/
def drawsFrom (k : Knobs cfg) : ReqType → BitVec 32
  | .read => 0
  | .write => k.rdWeight
  | .evict => k.rdWeight + k.wrWeight
  | .upgrade => k.rdWeight + k.wrWeight + k.evictWeight
  | .unnamed _ => 0

/-- Weights within `c_defaults` have a sum far below `2 ^ 32`, so that no sum of them wraps. -/
theorem Defaults.drawsFrom_add (hk : k.Defaults) (kind : ReqType) :
    (k.drawsFrom kind).toNat + (k.weight kind).toNat ≤ k.total.toNat ∧
      (k.drawsFrom kind + k.weight kind).toNat =
        (k.drawsFrom kind).toNat + (k.weight kind).toNat := by
  obtain ⟨-, hread, hwrite, hevict, hupgrade⟩ := hk
  cases kind with
  | read =>
      simp only [drawsFrom, weight, total]
      bv_omega
  | write =>
      simp only [drawsFrom, weight, total]
      bv_omega
  | evict =>
      simp only [drawsFrom, weight, total]
      bv_omega
  | upgrade =>
      simp only [drawsFrom, weight, total]
      bv_omega
  | unnamed code => simp [drawsFrom, weight]

theorem Defaults.chooseKind_eq_iff (hk : k.Defaults) {r : BitVec 32} (hr : r < k.total)
    (kind : ReqType) :
    k.chooseKind r = kind ↔ k.drawsFrom kind ≤ r ∧ r < k.drawsFrom kind + k.weight kind := by
  have hsome : k.total ≠ 0 := by
    rintro hnone
    rw [hnone] at hr
    exact absurd hr (by bv_omega)
  obtain ⟨-, hread, hwrite, hevict, hupgrade⟩ := hk
  unfold total at hr
  unfold chooseKind
  rw [if_neg hsome]
  split
  · cases kind <;> simp only [drawsFrom, weight, reduceCtorEq, true_iff, false_iff] <;> bv_omega
  · split
    · cases kind <;> simp only [drawsFrom, weight, reduceCtorEq, true_iff, false_iff] <;> bv_omega
    · split
      · cases kind <;> simp only [drawsFrom, weight, reduceCtorEq, true_iff, false_iff] <;> bv_omega
      · cases kind <;> simp only [drawsFrom, weight, reduceCtorEq, true_iff, false_iff] <;> bv_omega

/-- **Each kind is chosen by as many draws as its weight says**, for weights within `c_defaults`. -/
theorem kinds_in_proportion (k : Knobs cfg) (hk : k.Defaults) (kind : ReqType) :
    ((Finset.range k.total.toNat).filter fun r => k.chooseKind (BitVec.ofNat 32 r) = kind).card =
      (k.weight kind).toNat := by
  obtain ⟨hbound, hsum⟩ := hk.drawsFrom_add kind
  have hdraws :
      ((Finset.range k.total.toNat).filter fun r => k.chooseKind (BitVec.ofNat 32 r) = kind) =
        Finset.Ico (k.drawsFrom kind).toNat
          ((k.drawsFrom kind).toNat + (k.weight kind).toNat) := by
    ext r
    rw [Finset.mem_filter, Finset.mem_range, Finset.mem_Ico]
    have hbetween : ∀ hr : r < k.total.toNat, k.chooseKind (BitVec.ofNat 32 r) = kind ↔
        (k.drawsFrom kind).toNat ≤ r ∧
          r < (k.drawsFrom kind).toNat + (k.weight kind).toNat := by
      intro hr
      have hval : (BitVec.ofNat 32 r).toNat = r := by
        rw [BitVec.toNat_ofNat, Nat.mod_eq_of_lt (hr.trans k.total.isLt)]
      rw [hk.chooseKind_eq_iff (by rwa [BitVec.lt_def, hval]), BitVec.le_def, BitVec.lt_def, hval,
        hsum]
    constructor
    · rintro ⟨hr, hkind⟩
      exact (hbetween hr).mp hkind
    · intro hr
      have hlt : r < k.total.toNat := hr.2.trans_le hbound
      exact ⟨hlt, (hbetween hlt).mpr hr⟩
  rw [hdraws, Nat.card_Ico, Nat.add_sub_cancel_left]

/-- What the constructor sets satisfies `c_defaults`. -/
theorem new_defaults (cfg : Config) : (Knobs.new cfg).Defaults where
  numTxns := (by decide : (1 : BitVec 32) ≤ 100 ∧ (100 : BitVec 32) ≤ 1000)
  rdWeight := (by decide : (60 : BitVec 32) ≤ 100)
  wrWeight := (by decide : (20 : BitVec 32) ≤ 100)
  evictWeight := (by decide : (10 : BitVec 32) ≤ 100)
  upgradeWeight := (by decide : (10 : BitVec 32) ≤ 100)

/-- With the weights of the constructor 20 draws out of 100 choose a WRITE. -/
theorem new_writes_in_proportion :
    ((Finset.range (Knobs.new .shipped).total.toNat).filter fun r =>
      (Knobs.new .shipped).chooseKind (BitVec.ofNat 32 r) = .write).card =
        ((Knobs.new .shipped).weight .write).toNat :=
  kinds_in_proportion _ (new_defaults .shipped) .write

end Knobs

/-! ### `make_wdata` -/

/-- The first `n` chunks, each set to a word of its own. -/
theorem getLsbD_setWords (word : Nat → BitVec 32) (line : CacheLine) (n : Nat) {k : Nat}
    (hk : k < 512) :
    (((List.range n).map (32 * ·)).foldl (fun line i => setChunk line i (word i)) line).getLsbD k =
      if k < 32 * n then (word (32 * (k / 32))).getLsbD (k % 32) else line.getLsbD k := by
  induction n with
  | zero => rfl
  | succ n ih =>
      rw [List.range_succ, List.map_append, List.foldl_append, List.map_singleton,
        List.foldl_cons, List.foldl_nil, getLsbD_setChunk _ _ _ hk, ih]
      by_cases hchunk : 32 * n ≤ k ∧ k < 32 * n + 32
      · have hdiv : k / 32 = n := by omega
        have hmod : k % 32 = k - 32 * n := by omega
        rw [if_pos hchunk, if_pos (by omega), hdiv, hmod]
      · rw [if_neg hchunk]
        exact if_congr (by omega) rfl rfl

theorem chunkAt_makeWdata (i : BitVec 32) (a : Addr) {j : Nat} (hj : j < 16) :
    chunkAt (makeWdata i a) (32 * j) = (i ^^^ a) + BitVec.ofNat 32 (32 * j) := by
  apply BitVec.eq_of_getLsbD_eq
  intro b hb
  have hin : 32 * j + b < 512 := by omega
  have hword := getLsbD_setWords (fun k => (i ^^^ a) + BitVec.ofNat 32 k) 0#512 (lineSizeBits / 32)
    hin
  have hsize : 32 * (lineSizeBits / 32) = 512 := by decide
  have hdiv : (32 * j + b) / 32 = j := by omega
  have hmod : (32 * j + b) % 32 = b := by omega
  rw [hsize, if_pos hin, hdiv, hmod] at hword
  rw [chunkAt, BitVec.getLsbD_extractLsb', decide_eq_true hb, Bool.true_and]
  exact hword

theorem makeWdata_eq_iff {i i' : BitVec 32} {a a' : Addr} :
    makeWdata i a = makeWdata i' a' ↔ i ^^^ a = i' ^^^ a' := by
  constructor
  · intro heq
    have hfirst := chunkAt_makeWdata i a (j := 0) (by decide)
    have hfirst' := chunkAt_makeWdata i' a' (j := 0) (by decide)
    rw [heq, hfirst'] at hfirst
    simpa using hfirst.symm
  · intro heq
    unfold makeWdata
    rw [heq]

theorem xor_eq_xor_iff {w : Nat} (x y x' y' : BitVec w) :
    x ^^^ y = x' ^^^ y' ↔ y ^^^ y' = x ^^^ x' := by
  constructor <;> intro h
  · calc y ^^^ y' = x ^^^ (x ^^^ y) ^^^ y' := by rw [← BitVec.xor_assoc, BitVec.xor_self, BitVec.zero_xor]
      _ = x ^^^ x' := by rw [h, BitVec.xor_assoc, BitVec.xor_assoc, BitVec.xor_self, BitVec.xor_zero]
  · calc x ^^^ y = x ^^^ (y ^^^ y') ^^^ y' := by
          rw [BitVec.xor_assoc, BitVec.xor_assoc, BitVec.xor_self, BitVec.xor_zero]
      _ = x' ^^^ y' := by rw [h, ← BitVec.xor_assoc, BitVec.xor_self, BitVec.zero_xor]

/-! ### `body` -/

theorem l2Offset_makeAddr (tag : BitVec 16) (set : cfg.SetIdx) (off : BitVec 6) :
    (makeAddr tag set off).l2Offset = off := by
  unfold makeAddr Addr.l2Offset
  exact BitVec.extractLsb'_append_eq_right

theorem l2SetIdx_makeAddr (tag : BitVec 16) (set : cfg.SetIdx) (off : BitVec 6) :
    (makeAddr tag set off).l2SetIdx = set.setWidth 10 := by
  unfold makeAddr Addr.l2SetIdx
  rw [BitVec.extractLsb'_append_eq_of_le (Nat.le_refl 6)]
  exact BitVec.extractLsb'_append_eq_right

theorem l2Tag_makeAddr (tag : BitVec 16) (set : cfg.SetIdx) (off : BitVec 6) :
    (makeAddr tag set off).l2Tag = tag := by
  unfold makeAddr Addr.l2Tag
  rw [BitVec.extractLsb'_append_eq_of_le (show 6 ≤ 16 by decide)]
  exact BitVec.extractLsb'_append_eq_left

namespace Knobs

variable {k : Knobs cfg} {reqs : List (CachePacket cfg)}

/-- `randomize` finds a packet unless it is asked for a core that does not exist. -/
theorem exists_allows (hcore : k.useFixedCore = true → k.fixedCoreId.toNat < cfg.numCores)
    (i : BitVec 32)
    (draws : Draws) : ∃ req, k.Allows i draws req := by
  have halign : (k.chooseAddr draws.set draws.tag).l2Offset = 0 := l2Offset_makeAddr _ _ _
  by_cases hfixed : k.useFixedCore = true
  · exact ⟨⟨k.chooseKind draws.kind, k.chooseAddr draws.set draws.tag,
      ⟨k.fixedCoreId.toNat, hcore hfixed⟩, makeWdata i (k.chooseAddr draws.set draws.tag)⟩,
      halign, rfl, fun _ => rfl, rfl, rfl⟩
  · exact ⟨⟨k.chooseKind draws.kind, k.chooseAddr draws.set draws.tag, 0,
      makeWdata i (k.chooseAddr draws.set draws.tag)⟩,
      halign, rfl, fun h => absurd h hfixed, rfl, rfl⟩

theorem Sends.wdata (h : k.Sends reqs)
    (hcore : k.useFixedCore = true → k.fixedCoreId.toNat < cfg.numCores) {i : Nat}
    (hi : i < reqs.length) :
    reqs[i].wdata = makeWdata (BitVec.ofNat 32 i) reqs[i].addr := by
  obtain ⟨draws, before, -, hreq⟩ := h.randomized i hi
  have hallows : k.Allows (BitVec.ofNat 32 i) draws reqs[i] := by
    generalize reqs[i] = req at hreq
    cases hreq with
    | solved hallows => exact hallows
    | failed hnone =>
        obtain ⟨req, hallows⟩ := exists_allows hcore (BitVec.ofNat 32 i) draws
        exact absurd hallows (hnone req)
  rw [hallows.wdata, hallows.addr]

end Knobs

/-- When two transactions of a sequence carry the same line. -/
structure LinesApart (reqs : List (CachePacket cfg)) : Prop where
  collide_iff : ∀ i j (hi : i < reqs.length) (hj : j < reqs.length),
    reqs[i].wdata = reqs[j].wdata ↔
      reqs[i].addr ^^^ reqs[j].addr = BitVec.ofNat 32 i ^^^ BitVec.ofNat 32 j
  apart : ∀ i j (hi : i < reqs.length) (hj : j < reqs.length), i ≠ j →
    reqs[i].addr = reqs[j].addr → reqs[i].wdata ≠ reqs[j].wdata

/-- **A sequence never sends the same line twice to one address.** -/
theorem sent_lines_apart (k : Knobs cfg) (hk : k.Defaults)
    (hcore : k.useFixedCore = true → k.fixedCoreId.toNat < cfg.numCores)
    (reqs : List (CachePacket cfg)) (h : k.Sends reqs) : LinesApart reqs := by
  have hcollide : ∀ i j (hi : i < reqs.length) (hj : j < reqs.length),
      reqs[i].wdata = reqs[j].wdata ↔
        reqs[i].addr ^^^ reqs[j].addr = BitVec.ofNat 32 i ^^^ BitVec.ofNat 32 j := by
    intro i j hi hj
    rw [h.wdata hcore hi, h.wdata hcore hj, makeWdata_eq_iff]
    exact xor_eq_xor_iff _ _ _ _
  refine ⟨hcollide, fun i j hi hj hne haddr hdata => hne ?_⟩
  have hnumbers := (hcollide i j hi hj).mp hdata
  rw [haddr, BitVec.xor_self] at hnumbers
  have heq : BitVec.ofNat 32 i = BitVec.ofNat 32 j := BitVec.xor_eq_zero_iff.mp hnumbers.symm
  have hlen := h.length
  have hmax : k.numTxns.toNat ≤ 1000 := hk.numTxns.2
  have htoNat := congrArg BitVec.toNat heq
  rw [BitVec.toNat_ofNat, BitVec.toNat_ofNat, Nat.mod_eq_of_lt (by omega),
    Nat.mod_eq_of_lt (by omega)] at htoNat
  exact htoNat

/-- Two transactions with the default knobs. -/
def twoTxns : Knobs .shipped := { Knobs.new .shipped with numTxns := 2 }

/-- Both draw the line at `0x40`. -/
def drawn (kind : BitVec 32) : Draws := ⟨kind, 1, 0⟩

theorem chooseAddr_drawn (kind : BitVec 32) :
    twoTxns.chooseAddr (drawn kind).set (drawn kind).tag = 0x40 := by
  have haddr : twoTxns.chooseAddr 1 0 = 0x40 := by decide
  exact haddr

def sentReq (kind : ReqType) (i : BitVec 32) : CachePacket .shipped :=
  ⟨kind, 0x40, 3, makeWdata i 0x40⟩

theorem sentReq_allowed (kind i : BitVec 32) :
    twoTxns.Allows i (drawn kind) (sentReq (twoTxns.chooseKind kind) i) where
  aligned := by
    have hoffset : Addr.l2Offset 0x40 = 0 := by decide
    exact hoffset
  reqType := rfl
  coreId h := nomatch h
  addr := (chooseAddr_drawn kind).symm
  wdata := by
    rw [chooseAddr_drawn]
    rfl

def twoReqs : List (CachePacket .shipped) := [sentReq .read 0, sentReq .write 1]

theorem twoReqs_sent : twoTxns.Sends twoReqs where
  length := rfl
  randomized i hi := by
    have hlen : twoReqs.length = 2 := rfl
    rw [hlen] at hi
    obtain rfl | rfl : i = 0 ∨ i = 1 := by omega
    · exact ⟨drawn 0, sentReq .read 0, fun _ => by decide, .solved (sentReq_allowed 0 0)⟩
    · exact ⟨drawn 60, sentReq .read 0, fun _ => by decide, .solved (sentReq_allowed 60 1)⟩

theorem twoReqs_apart : LinesApart twoReqs :=
  sent_lines_apart twoTxns { Knobs.new_defaults .shipped with numTxns := by decide }
    (fun h => nomatch h) twoReqs twoReqs_sent

/-! ### `dirty_evict_set_seq` -/

/-- The line that write `i` goes to. -/
def evictAddr (setX : cfg.SetIdx) (i : Nat) : Addr :=
  makeAddr (0x1000 + BitVec.ofNat 16 i) setX 0

theorem evictAddr_l2Tag_ne (setX : cfg.SetIdx) {i j : Nat} (hlt : i < j) (hj : j < 2 ^ 16) :
    (evictAddr setX i).l2Tag ≠ (evictAddr setX j).l2Tag := by
  unfold evictAddr
  rw [l2Tag_makeAddr, l2Tag_makeAddr]
  bv_omega

/-- The number of a write lies in the low half of its line's first word, the tag in the high half. -/
theorem evictLine_ne (setX : cfg.SetIdx) {i j : Nat} (hlt : i < j) (hj : j < 2 ^ 16) :
    makeWdata (BitVec.ofNat 32 i) (evictAddr setX i) ≠
      makeWdata (BitVec.ofNat 32 j) (evictAddr setX j) := by
  have hhigh : ∀ n < 2 ^ 16, (BitVec.ofNat 32 n).extractLsb' 16 16 = 0#16 := by
    intro n hn
    apply BitVec.eq_of_toNat_eq
    rw [BitVec.extractLsb'_toNat, BitVec.toNat_ofNat, Nat.shiftRight_eq_div_pow, BitVec.toNat_zero]
    omega
  intro heq
  have hwords := congrArg (BitVec.extractLsb' 16 16) (makeWdata_eq_iff.mp heq)
  rw [BitVec.extractLsb'_xor, BitVec.extractLsb'_xor, hhigh i (hlt.trans hj), hhigh j hj,
    BitVec.zero_xor, BitVec.zero_xor] at hwords
  exact evictAddr_l2Tag_ne setX hlt hj hwords

/-- As many writes as overfill one set: of different lines in it, with different data. -/
structure FillsSet (setX : cfg.SetIdx) (packets : List (L2EntryPacket cfg)) : Prop where
  length : packets.length = cfg.ways + 2
  writes : ∀ p ∈ packets, p.reqType = .write ∧ p.coreId.val = 1 ∧
    p.targetAddr.l2SetIdx = setX.setWidth 10
  tags : packets.Pairwise fun p q => p.targetAddr.l2Tag ≠ q.targetAddr.l2Tag
  lines : packets.Pairwise fun p q => p.cacheLine ≠ q.cacheLine

theorem dirtyEvictSetSeq_legal (hcores : 1 < cfg.numCores) (setX : cfg.SetIdx) :
    ∀ call ∈ dirtyEvictSetSeq setX, call.Legal cfg := by
  intro call hcall
  obtain ⟨i, -, rfl⟩ := List.mem_map.mp hcall
  exact ⟨l2Offset_makeAddr _ _ _, hcores⟩

/-- The bus shows write `i` as the call asks for it. -/
theorem carried_evict {setX : cfg.SetIdx} {packets : List (L2EntryPacket cfg)}
    (h : List.Forall₂ LineCall.Carried (dirtyEvictSetSeq setX) packets) {i : Nat}
    (hi : i < packets.length) :
    packets[i].reqType = .write ∧ packets[i].coreId.val = 1 ∧
      packets[i].targetAddr = evictAddr setX i ∧
      packets[i].cacheLine = makeWdata (BitVec.ofNat 32 i) (evictAddr setX i) := by
  have hcall : i < (dirtyEvictSetSeq setX).length := h.length_eq ▸ hi
  have hcarried := h.get hcall hi
  have hwrite : (dirtyEvictSetSeq setX).get ⟨i, hcall⟩ =
      .doWriteLine (evictAddr setX i) (makeWdata (BitVec.ofNat 32 i) (evictAddr setX i)) 1 := by
    simp [dirtyEvictSetSeq, evictAddr]
  rw [hwrite] at hcarried
  exact ⟨hcarried.reqType, hcarried.coreId, hcarried.targetAddr, hcarried.cacheLine⟩

/-- **The bus shows two writes more than the set has ways**, no two of them alike. -/
theorem dirtyEvictSetSeq_fillsSet (hcores : 1 < cfg.numCores) (hways : cfg.ways + 2 ≤ 2 ^ 16)
    (setX : cfg.SetIdx) (packets : List (L2EntryPacket cfg))
    (h : Stimulus.Drives (dirtyEvictSetSeq setX) packets) : FillsSet setX packets := by
  have hcarried := h.carried (dirtyEvictSetSeq_legal hcores setX)
  have hlength : packets.length = cfg.ways + 2 := by
    rw [← hcarried.length_eq]
    simp [dirtyEvictSetSeq]
  refine ⟨hlength, fun p hp => ?_, ?_, ?_⟩
  · obtain ⟨i, hi, rfl⟩ := List.mem_iff_getElem.mp hp
    obtain ⟨hkind, hcore, haddr, -⟩ := carried_evict hcarried hi
    exact ⟨hkind, hcore, haddr ▸ l2SetIdx_makeAddr _ _ _⟩
  · rw [List.pairwise_iff_getElem]
    intro i j hi hj hlt
    rw [(carried_evict hcarried hi).2.2.1, (carried_evict hcarried hj).2.2.1]
    exact evictAddr_l2Tag_ne setX hlt (by omega)
  · rw [List.pairwise_iff_getElem]
    intro i j hi hj hlt
    rw [(carried_evict hcarried hi).2.2.2, (carried_evict hcarried hj).2.2.2]
    exact evictLine_ne setX hlt (by omega)

theorem shipped_evicts :
    ∃ packets : List (L2EntryPacket .shipped),
      Stimulus.Drives (dirtyEvictSetSeq (0 : Config.shipped.SetIdx)) packets ∧
        FillsSet (0 : Config.shipped.SetIdx) packets := by
  have hcores : 1 < Config.shipped.numCores := by decide
  obtain ⟨packets, hdrives⟩ := Stimulus.exists_run (dirtyEvictSetSeq_legal hcores 0) []
  exact ⟨packets, hdrives, dirtyEvictSetSeq_fillsSet hcores (by decide) 0 packets hdrives⟩

end MultiCoreL2Cache
