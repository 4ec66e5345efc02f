import MultiCoreL2Cache.Proof.Blind

/-!
# What a tag memory keeps

A packet written to a tag memory is cut to `META_WIDTH` bits. The address is the last member of the
packet, so what is kept is the low end of the address and nothing else: a packet comes back as it was
written exactly where all its higher bits are zero.
-/

namespace MultiCoreL2Cache

open MemDP Packed

variable {cfg : Config}

/-! ### The layout of the packet -/

theorem OwnerState.toBits_ofBits (b : BitVec 2) : (OwnerState.ofBits b).toBits = b := by
  revert b
  decide

namespace MetaPacket

/-- The members of the packet, bit by bit. -/
theorem getLsbD_toBits (p : MetaPacket cfg) (i : Nat) :
    p.toBits.getLsbD i =
      if i < 32 then p.addr.getLsbD i
      else if i < 34 then p.ownerState.toBits.getLsbD (i - 32)
      else if i < 34 + cfg.numCores then p.sharers.getLsbD (i - 34)
      else if i = 34 + cfg.numCores then p.dirty
      else decide (i = 35 + cfg.numCores) && p.valid := by
  simp only [toBits, BitVec.getLsbD_append, BitVec.getLsbD_ofBool]
  by_cases haddr : i < 32
  · rw [if_pos haddr, if_pos haddr]
  rw [if_neg haddr, if_neg haddr]
  by_cases hstate : i < 34
  · rw [if_pos hstate, if_pos (by omega)]
  rw [if_neg hstate, if_neg (by omega)]
  by_cases hsharers : i < 34 + cfg.numCores
  · rw [if_pos hsharers, if_pos (by omega), Nat.sub_sub]
  rw [if_neg hsharers, if_neg (by omega)]
  by_cases hdirty : i = 34 + cfg.numCores
  · rw [if_pos hdirty, if_pos (by omega)]
    simp [hdirty, Nat.sub_sub]
  · rw [if_neg hdirty, if_neg (by omega)]
    congr 1
    rw [decide_eq_decide]
    omega

theorem ofBits_toBits (p : MetaPacket cfg) : ofBits p.toBits = p := by
  have hvalid : p.toBits.getLsbD (1 + cfg.numCores + 2 + 32) = p.valid := by
    rw [getLsbD_toBits, if_neg (by omega), if_neg (by omega), if_neg (by omega), if_neg (by omega)]
    simp
    omega
  have hdirty : p.toBits.getLsbD (cfg.numCores + 2 + 32) = p.dirty := by
    rw [getLsbD_toBits, if_neg (by omega), if_neg (by omega), if_neg (by omega), if_pos (by omega)]
  have hsharers : p.toBits.extractLsb' (2 + 32) cfg.numCores = p.sharers := by
    apply BitVec.eq_of_getLsbD_eq
    intro i hi
    rw [BitVec.getLsbD_extractLsb', getLsbD_toBits, if_neg (by omega), if_neg (by omega),
      if_pos (by omega), Nat.add_sub_cancel_left]
    simp [hi]
  have hstate : p.toBits.extractLsb' 32 2 = p.ownerState.toBits := by
    apply BitVec.eq_of_getLsbD_eq
    intro i hi
    rw [BitVec.getLsbD_extractLsb', getLsbD_toBits, if_neg (by omega), if_pos (by omega),
      Nat.add_sub_cancel_left]
    simp [hi]
  have haddr : p.toBits.extractLsb' 0 32 = p.addr := by
    apply BitVec.eq_of_getLsbD_eq
    intro i hi
    rw [BitVec.getLsbD_extractLsb', Nat.zero_add, getLsbD_toBits, if_pos hi]
    simp [hi]
  rw [ofBits, hvalid, hdirty, hsharers, hstate, haddr, OwnerState.ofBits_toBits]

theorem toBits_ofBits (b : BitVec (1 + 1 + cfg.numCores + 2 + 32)) :
    (ofBits b : MetaPacket cfg).toBits = b := by
  apply BitVec.eq_of_getLsbD_eq
  intro i hi
  rw [getLsbD_toBits]
  unfold ofBits
  dsimp only
  rw [OwnerState.toBits_ofBits]
  simp only [BitVec.getLsbD_extractLsb']
  by_cases haddr : i < 32
  · simp [haddr]
  rw [if_neg haddr]
  by_cases hstate : i < 34
  · rw [if_pos hstate, Nat.add_sub_cancel' (by omega)]
    simp
    omega
  rw [if_neg hstate]
  by_cases hsharers : i < 34 + cfg.numCores
  · rw [if_pos hsharers, show 2 + 32 + (i - 34) = i by omega]
    simp
    omega
  rw [if_neg hsharers]
  by_cases hdirty : i = 34 + cfg.numCores
  · rw [if_pos hdirty, hdirty]
    congr 1
    omega
  · have hvalid : i = 35 + cfg.numCores := by omega
    rw [if_neg hdirty, hvalid]
    simp
    congr 1
    omega
theorem append_toNat_lt_iff {m v w : Nat} (hle : m ≤ w) (x : BitVec v) (y : BitVec w) :
    (x ++ y).toNat < 2 ^ m ↔ x.toNat < 2 ^ 0 ∧ y.toNat < 2 ^ m := by
  have hpow : 2 ^ m ≤ 2 ^ w := Nat.pow_le_pow_right (by decide) hle
  have hy := y.isLt
  have hnat : (x ++ y).toNat = 2 ^ w * x.toNat + y.toNat := by
    rw [BitVec.toNat_append, Nat.two_pow_add_eq_or_of_lt hy, Nat.shiftLeft_eq, Nat.mul_comm]
  rw [hnat]
  constructor
  · intro hlt
    have hzero : x.toNat = 0 := by
      by_contra hne
      have hmul : 2 ^ w * 1 ≤ 2 ^ w * x.toNat := Nat.mul_le_mul_left _ (by omega)
      omega
    rw [hzero] at hlt ⊢
    exact ⟨by decide, by omega⟩
  · rintro ⟨hx, hlt⟩
    have hzero : x.toNat = 0 := by omega
    rw [hzero]
    omega

theorem toNat_lt_one_iff {w : Nat} (x : BitVec w) : x.toNat < 2 ^ 0 ↔ x = 0 := by
  rw [← BitVec.toNat_inj]
  simp

/-- All bits from `META_WIDTH` up are zero. -/
def Fits (p : MetaPacket cfg) : Prop := p.toBits.toNat < 2 ^ cfg.metaWidth

instance (p : MetaPacket cfg) : Decidable p.Fits := inferInstanceAs (Decidable (_ < _))

/-- As configured, only the low 21 bits of the address are kept. -/
theorem fits_shipped_iff (p : MetaPacket .shipped) :
    p.Fits ↔ p.valid = false ∧ p.dirty = false ∧ p.sharers = 0 ∧ p.ownerState = .invalid ∧
      p.addr.toNat < 2 ^ 21 := by
  have hwidth : Config.shipped.metaWidth = 21 := by decide
  have hstate : p.ownerState.toBits = 0 ↔ p.ownerState = .invalid := by
    cases p.ownerState <;> decide
  have hbool : ∀ b : Bool, BitVec.ofBool b = 0 ↔ b = false := by decide
  rw [Fits, hwidth, toBits, append_toNat_lt_iff (by decide), append_toNat_lt_iff (by decide),
    append_toNat_lt_iff (by decide), append_toNat_lt_iff (by decide), toNat_lt_one_iff,
    toNat_lt_one_iff, toNat_lt_one_iff, toNat_lt_one_iff, hstate, hbool, hbool]
  tauto

theorem setWidth_setWidth_eq_iff {m n : Nat} (b : BitVec n) (hle : m ≤ n) :
    (b.setWidth m).setWidth n = b ↔ b.toNat < 2 ^ m := by
  have hnat : ((b.setWidth m).setWidth n).toNat = b.toNat % 2 ^ m := by
    have hlt : b.toNat % 2 ^ m < 2 ^ n :=
      (Nat.mod_lt _ (Nat.two_pow_pos m)).trans_le (Nat.pow_le_pow_right (by decide) hle)
    rw [BitVec.toNat_setWidth, BitVec.toNat_setWidth, Nat.mod_eq_of_lt hlt]
  rw [← BitVec.toNat_inj, hnat]
  constructor
  · intro heq
    rw [← heq]
    exact Nat.mod_lt _ (Nat.two_pow_pos m)
  · exact Nat.mod_eq_of_lt

theorem ofBits_cut_eq_iff (p : MetaPacket cfg) :
    ofBits ((p.toBits.setWidth cfg.metaWidth).setWidth _) = p ↔ p.Fits := by
  rw [Fits, ← setWidth_setWidth_eq_iff p.toBits ((metaWidth_le cfg).trans (by omega))]
  constructor
  · intro heq
    have hbits := congrArg toBits heq
    rwa [toBits_ofBits] at hbits
  · intro heq
    rw [heq, ofBits_toBits]

end MetaPacket

/-! ### The memories over a run -/

/-- What the memories are driven with in one cycle. -/
structure PortDrive (cfg : Config) where
  reset : Bool
  undriven : Undriven cfg
  nets : Nets cfg

namespace Arrays

def step (a : Arrays cfg) (io : PortDrive cfg) : Arrays cfg := a.edge io.reset io.undriven io.nets

abbrev run (a : Arrays cfg) (input : Nat → PortDrive cfg) : Nat → Arrays cfg :=
  Clocked.run step a input

end Arrays

namespace PortDrive

def WritesTag (io : PortDrive cfg) (w : cfg.Way) (set : Fin cfg.numSets) : Prop :=
  io.nets.writeMetaEn w = true ∧ set.val = (io.nets.writeMetaAddr w).toNat

def ReadsTag (io : PortDrive cfg) (w : cfg.Way) (set : Fin cfg.numSets) : Prop :=
  io.nets.readMetaEn w = true ∧ set.val = (io.nets.readMetaAddr w).toNat

end PortDrive

/-- The packet is written in cycle `b`, nothing touches its cell until cycle `k`, which reads it. -/
structure WriteThenRead (input : Nat → PortDrive cfg) (w : cfg.Way) (set : Fin cfg.numSets)
    (p : MetaPacket cfg) (b k : Nat) : Prop where
  writes : (input b).WritesTag w set
  written : (input b).undriven.writeMeta w = p
  kept : (input b).reset = false
  later : b < k
  leaves : ∀ j, b < j → j < k → (input j).reset = false ∧ ¬(input j).WritesTag w set
  reads : (input k).ReadsTag w set

theorem Arrays.step_tags_apply (a : Arrays cfg) {io : PortDrive cfg} (hreset : io.reset = false)
    (w : cfg.Way) (set : Fin cfg.numSets) [Decidable (io.WritesTag w set)] :
    (a.step io).tags w set =
      if io.WritesTag w set then (io.undriven.writeMeta w).toBits.setWidth cfg.metaWidth
      else a.tags w set := by
  have hcell := posedge_apply (tagWrite io.undriven io.nets w) (a.tags w) set
  unfold Arrays.step Arrays.edge
  rw [hreset]
  exact hcell.trans (if_congr Iff.rfl rfl rfl)

theorem WriteThenRead.word {a : Arrays cfg} {input : Nat → PortDrive cfg} {w : cfg.Way}
    {set : Fin cfg.numSets} {p : MetaPacket cfg} {b k : Nat} (h : WriteThenRead input w set p b k) :
    (a.run input k).tags w set = p.toBits.setWidth cfg.metaWidth := by
  classical
  have hkept : ∀ j, b + 1 ≤ j → j < k →
      (a.run input (j + 1)).tags w set = (a.run input j).tags w set := by
    intro j hlt hle
    obtain ⟨hreset, hleaves⟩ := h.leaves j hlt hle
    rw [Arrays.run, Clocked.run_succ, Arrays.step_tags_apply _ hreset, if_neg hleaves]
  calc (a.run input k).tags w set = (a.run input (b + 1)).tags w set :=
        Clocked.run_keeps (fun a : Arrays cfg => a.tags w set) h.later hkept
    _ = p.toBits.setWidth cfg.metaWidth := by
      rw [Arrays.run, Clocked.run_succ, Arrays.step_tags_apply _ h.kept, if_pos h.writes, h.written]

theorem Arrays.ports_readMeta (a : Arrays cfg) {io : PortDrive cfg} {w : cfg.Way}
    {set : Fin cfg.numSets} (h : io.ReadsTag w set) :
    (a.ports io.undriven io.nets).readMeta w = .ofBits ((a.tags w set).setWidth _) := by
  have hword : rdata 0 (a.tags w) (tagWrite io.undriven io.nets w) (io.nets.readMetaEn w)
      (io.nets.readMetaAddr w) = some (a.tags w set) := by
    have hlt : (io.nets.readMetaAddr w).toNat < cfg.numSets := h.2 ▸ set.isLt
    have hset : set = ⟨(io.nets.readMetaAddr w).toNat, hlt⟩ := Fin.ext h.2
    rw [rdata, if_neg (by decide), if_pos h.1, word, select?_of_lt _ hlt, hset]
  have hport : (a.ports io.undriven io.nets).readMeta w =
      .ofBits (((rdata 0 (a.tags w) (tagWrite io.undriven io.nets w) (io.nets.readMetaEn w)
        (io.nets.readMetaAddr w)).getD io.undriven.tagX).setWidth _) := rfl
  rw [hport, hword]
  rfl

/-- **A packet comes back from its tag memory exactly where it fits.** -/
theorem metadata_roundTrip_iff (a : Arrays cfg) (input : Nat → PortDrive cfg) (w : cfg.Way)
    (set : Fin cfg.numSets) (p : MetaPacket cfg) (b k : Nat)
    (h : WriteThenRead input w set p b k) :
    ((a.run input k).ports (input k).undriven (input k).nets).readMeta w = p ↔ p.Fits := by
  rw [Arrays.ports_readMeta _ h.reads, h.word]
  exact p.ofBits_cut_eq_iff

/-- Way 0 is written at set 1 and read there in the next cycle. -/
def writeThenRead (p : MetaPacket .shipped) : Nat → PortDrive .shipped
  | 0 => {
      reset := false
      undriven := { (Drive.idle .shipped).toUndriven with writeMeta := fun _ => p }
      nets := { Nets.zero .shipped with
        writeMetaEn := fun w => decide (w = 0), writeMetaAddr := fun _ => 1 } }
  | _ + 1 => {
      reset := false
      undriven := (Drive.idle .shipped).toUndriven
      nets := { Nets.zero .shipped with
        readMetaEn := fun w => decide (w = 0), readMetaAddr := fun _ => 1 } }

theorem writeThenRead_cell (p : MetaPacket .shipped) :
    WriteThenRead (writeThenRead p) 0 ⟨1, by decide⟩ p 0 1 where
  writes := ⟨rfl, rfl⟩
  written := rfl
  kept := rfl
  later := by decide
  leaves j hlt hgt := by omega
  reads := ⟨rfl, rfl⟩

theorem lowAddress_roundTrip_iff :
    (((Arrays.zero .shipped).run (writeThenRead ⟨false, false, 0, .invalid, 0x1f0040⟩) 1).ports
        (writeThenRead ⟨false, false, 0, .invalid, 0x1f0040⟩ 1).undriven
        (writeThenRead ⟨false, false, 0, .invalid, 0x1f0040⟩ 1).nets).readMeta 0 =
      ⟨false, false, 0, .invalid, 0x1f0040⟩ ↔
      MetaPacket.Fits (⟨false, false, 0, .invalid, 0x1f0040⟩ : MetaPacket .shipped) :=
  metadata_roundTrip_iff _ _ 0 ⟨1, by decide⟩ _ 0 1 (writeThenRead_cell _)

theorem metadata_lost :
    ¬∀ (cfg : Config) (a : Arrays cfg) (input : Nat → PortDrive cfg) (w : cfg.Way)
      (set : Fin cfg.numSets) (p : MetaPacket cfg) (b k : Nat), WriteThenRead input w set p b k →
      ((a.run input k).ports (input k).undriven (input k).nets).readMeta w = p := by
  intro hclaim
  have hback := hclaim .shipped (.zero _) (writeThenRead ⟨true, false, 0b0010, .exclusive, 0x40⟩) 0
    ⟨1, by decide⟩ _ 0 1 (writeThenRead_cell _)
  have hvalid := congrArg MetaPacket.valid hback
  rw [Arrays.ports_blind _ _ _ 0] at hvalid
  cases hvalid

end MultiCoreL2Cache
