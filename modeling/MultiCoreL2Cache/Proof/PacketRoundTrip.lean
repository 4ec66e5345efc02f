import MultiCoreL2Cache.Model.PacketCodec

/-!
# Packets survive the packer

A packet is its three short fields followed by the sixteen chunks of its line. Unpacking takes the
same bits in the same order, and the chunks put together again cover the whole line.
-/

namespace MultiCoreL2Cache

open BitStream

variable {numCoreBits : Nat}

theorem getLsbD_setChunk (line : CacheLine) (i : Nat) (chunk : BitVec 32) {k : Nat} (hk : k < 512) :
    (setChunk line i chunk).getLsbD k =
      if i ≤ k ∧ k < i + 32 then chunk.getLsbD (k - i) else line.getLsbD k := by
  have hsize : ∀ j, j ≤ k → k - j < 512 := fun j _ => by omega
  unfold setChunk
  simp only [BitVec.getLsbD_or, BitVec.getLsbD_and, BitVec.getLsbD_not, BitVec.getLsbD_shiftLeft,
    BitVec.getLsbD_setWidth, BitVec.getLsbD_allOnes, hk, decide_true, Bool.true_and]
  by_cases hlow : i ≤ k
  · by_cases hhigh : k < i + 32
    · have hinside : k - i < 32 := by omega
      simp [hlow, hhigh, hinside, hsize i hlow, Nat.not_lt.mpr hlow]
    · have houtside : 32 ≤ k - i := by omega
      simp [hhigh, Nat.not_lt.mpr houtside, BitVec.getLsbD_of_ge chunk _ houtside]
  · simp [hlow, Nat.lt_of_not_le hlow]

/-- The first `n` chunks carry the low `32 * n` bits over. -/
theorem getLsbD_setChunks (sent line : CacheLine) (n : Nat) {k : Nat} (hk : k < 512) :
    (((List.range n).map (32 * ·)).foldl (fun line i => setChunk line i (chunkAt sent i))
        line).getLsbD k =
      if k < 32 * n then sent.getLsbD k else line.getLsbD k := by
  induction n with
  | zero => rfl
  | succ n ih =>
      rw [List.range_succ, List.map_append, List.foldl_append, List.map_singleton,
        List.foldl_cons, List.foldl_nil, getLsbD_setChunk _ _ _ hk, ih]
      by_cases hchunk : 32 * n ≤ k ∧ k < 32 * n + 32
      · have hbit : (chunkAt sent (32 * n)).getLsbD (k - 32 * n) = sent.getLsbD k := by
          have hinside : k - 32 * n < 32 := by omega
          rw [chunkAt, BitVec.getLsbD_extractLsb', decide_eq_true hinside, Bool.true_and,
            Nat.add_sub_cancel' hchunk.1]
        rw [if_pos hchunk, if_pos (by omega), hbit]
      · rw [if_neg hchunk]
        exact if_congr (by omega) rfl rfl

theorem setChunks_eq (sent line : CacheLine) :
    chunkStarts.foldl (fun line i => setChunk line i (chunkAt sent i)) line = sent := by
  apply BitVec.eq_of_getLsbD_eq
  intro k hk
  exact (getLsbD_setChunks sent line (lineSizeBits / 32) hk).trans (if_pos hk)

theorem ofNat_toNat_mod {n : Nat} (x : BitVec n) : BitVec.ofNat n (x.toNat % 2 ^ n) = x := by
  apply BitVec.eq_of_toNat_eq
  rw [BitVec.toNat_ofNat, Nat.mod_mod, Nat.mod_eq_of_lt x.isLt]

namespace PackedItem

def lineBits (line : CacheLine) : List Bool :=
  chunkStarts.flatMap fun i => lowBits (chunkAt line i).toNat 32

def bits (item : PackedItem numCoreBits) : List Bool :=
  lowBits item.reqType.toBits.toNat 3 ++ (lowBits item.coreId.toNat numCoreBits ++
    (lowBits item.addr.toNat 32 ++ lineBits item.wdata))

theorem appends_doPack (item : PackedItem numCoreBits) : Appends item.doPack item.bits :=
  (appends_push _ _).seq <| (appends_push _ _).seq <| (appends_push _ _).seq <|
    appends_forM (fun _ => appends_push _ _) chunkStarts

theorem yields_unpackChunk (sent line : CacheLine) (i : Nat) :
    Yields (unpackChunk line i) (lowBits (chunkAt sent i).toNat 32)
      (setChunk line i (chunkAt sent i)) := by
  have hchunk := (yields_pop (chunkAt sent i).toNat 32).bind_pure
    fun chunk => setChunk line i (BitVec.ofNat 32 chunk)
  rwa [ofNat_toNat_mod] at hchunk

theorem yields_line (sent line : CacheLine) :
    Yields (chunkStarts.foldlM unpackChunk line) (lineBits sent) sent := by
  have hloop := yields_foldlM (yields_unpackChunk sent) chunkStarts line
  rwa [setChunks_eq] at hloop

theorem yields_doUnpack (item sent : PackedItem numCoreBits) :
    Yields item.doUnpack sent.bits sent := by
  let received : CacheLine → PackedItem numCoreBits := fun wdata =>
    { reqType := .ofBits (BitVec.ofNat 3 (sent.reqType.toBits.toNat % 2 ^ 3))
      coreId := BitVec.ofNat numCoreBits (sent.coreId.toNat % 2 ^ numCoreBits)
      addr := BitVec.ofNat 32 (sent.addr.toNat % 2 ^ 32)
      wdata := wdata }
  have hsent : received sent.wdata = sent := by
    simp only [received, ofNat_toNat_mod, ReqType.ofBits_toBits]
  have hfields := (yields_line sent.wdata item.wdata).bind_pure received
  rw [hsent] at hfields
  exact (yields_pop _ 3).bind ((yields_pop _ numCoreBits).bind ((yields_pop _ 32).bind hfields))

theorem doCompare_iff (item other : PackedItem numCoreBits) :
    item.doCompare other = true ↔ item.reqType = other.reqType ∧ item.coreId = other.coreId ∧
      item.addr = other.addr ∧ item.wdata = other.wdata := by
  unfold doCompare addr32
  by_cases hkind : item.reqType = other.reqType <;> by_cases hcore : item.coreId = other.coreId <;>
    by_cases haddr : item.addr = other.addr <;> by_cases hline : item.wdata = other.wdata <;>
    simp [hkind, hcore, haddr, hline]

end PackedItem

/-- **Packets packed one after another are unpacked again.** As many calls, each on a packet of any
contents, return them all in order and empty the packer, and a comparison tells packets apart by
their four fields. -/
theorem packets_round_trip (items : List (PackedItem numCoreBits))
    (target : Nat → PackedItem numCoreBits) :
    (items.forM PackedItem.doPack >>= fun _ =>
        (List.range items.length).mapM fun k => (target k).doUnpack).run [] = (items, []) ∧
      ∀ item other : PackedItem numCoreBits, item.doCompare other = true ↔
        item.reqType = other.reqType ∧ item.coreId = other.coreId ∧ item.addr = other.addr ∧
          item.wdata = other.wdata := by
  refine ⟨?_, PackedItem.doCompare_iff⟩
  have hwrites := appends_forM PackedItem.appends_doPack items
  have hreads := yields_mapM (fun k : Nat => PackedItem.yields_doUnpack (target k)) items
    (List.range items.length) List.length_range
  exact hreads.run_appended hwrites

end MultiCoreL2Cache
