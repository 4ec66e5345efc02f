import MultiCoreL2Cache.Proof.HandOver
import MultiCoreL2Cache.Proof.Lockout

/-!
# What the parameters decide

Each of the three parameters that a user sets has a bound that the header does not state. A dirty line
is written back when cores 0 to 3 have answered, so that it takes four cores to write one back. The set
index has ten bits whatever the number of sets, and only some of them reach the memories when there are
16 ways or more. The indices into the MSHRs have three bits, and a ninth MSHR is one that is never used
but holds address 0 all the same.
-/

namespace MultiCoreL2Cache

open MemDP Packed

variable {cfg : Config}

/-! ### Cores -/

section Cores

variable {r r' : Regs cfg} {c : Cycle cfg} {n n' : Nets cfg}

def Regs.withLines (r : Regs cfg) (lines : cfg.Core → CacheLine) : Regs cfg :=
  { r with l2ExitPacket := fun core => { r.l2ExitPacket core with cacheLine := lines core } }

theorem Regs.eq_withLines (hexit : ∀ core, r'.l2ExitPacket core =
      { r.l2ExitPacket core with cacheLine := (r'.l2ExitPacket core).cacheLine })
    (hsnoop : ∀ core, r'.snoopReq core = r.snoopReq core) (hmshrs : r'.mshrs = r.mshrs)
    (hfree : r'.freeIdx = r.freeIdx) (hwait : r'.waitIdx = r.waitIdx)
    (haw : r'.awPacket = r.awPacket) (hw : r'.wPacket = r.wPacket)
    (har : r'.arPacket = r.arPacket) (hlrus : r'.lrus = r.lrus) :
    r' = r.withLines fun core => (r'.l2ExitPacket core).cacheLine := by
  ext1
  · exact funext hexit
  · exact funext hsnoop
  · exact hmshrs
  · exact hfree
  · exact hwait
  · exact haw
  · exact hw
  · exact har
  · exact hlrus

def Cycle.withData (c : Cycle cfg) (data : cfg.Way → CacheLine) : Cycle cfg :=
  { c with readData := data }

theorem Cycle.withData_withData (c : Cycle cfg) (data data' : cfg.Way → CacheLine) :
    (c.withData data).withData data' = c.withData data' := rfl

theorem respValid_of_le {core : Nat} (hle : cfg.numCores ≤ core) : respValid c core = false := by
  unfold respValid
  rw [select?_of_not_lt _ (Nat.not_lt.mpr hle)]

theorem allBack_of_lt_four (hcores : cfg.numCores < 4) : allBack c = false := by
  have hlast : respValid c 3 = false := respValid_of_le (Nat.le_of_lt_succ hcores)
  simp [allBack, hlast]

theorem modified_of_victimAllocates (hcores : cfg.numCores < 4)
    (halloc : victimAllocates r c = true) : victimModified c (lruWay r) = true := by
  unfold victimAllocates victimAnswered at halloc
  rw [allBack_of_lt_four hcores] at halloc
  by_contra hmod
  rw [if_neg hmod, Bool.and_false] at halloc
  cases halloc

section Step

variable (lines : cfg.Core → CacheLine) (data : cfg.Way → CacheLine)

theorem dramMshrs_withData (hcores : cfg.numCores < 4) :
    dramMshrs (r.withLines lines) (c.withData data) = dramMshrs r c := by
  have hsame : victimAllocates (r.withLines lines) (c.withData data) = victimAllocates r c := rfl
  have hretired : retiredMshrs (r.withLines lines) (c.withData data) = retiredMshrs r c := rfl
  unfold dramMshrs
  rw [hsame, hretired]
  by_cases halloc : victimAllocates r c = true
  · have hmod := modified_of_victimAllocates hcores halloc
    have hmod' : victimModified (c.withData data) (lruWay (r.withLines lines)) = true := hmod
    have hentry : victimEntry (r.withLines lines) (c.withData data) = victimEntry r c := by
      unfold victimEntry
      rw [if_pos hmod, if_pos hmod']
      rfl
    rw [if_pos halloc, if_pos halloc, hentry]
    rfl
  · rw [if_neg halloc, if_neg halloc]

theorem comb_exit_withData (hexists : n'.mshrExists = n.mshrExists) (core : cfg.Core) :
    (comb (r.withLines lines) (c.withData data) n').next.l2ExitPacket core =
      { (comb r c n).next.l2ExitPacket core with
        cacheLine :=
          ((comb (r.withLines lines) (c.withData data) n').next.l2ExitPacket core).cacheLine } := by
  have hsame : (c.withData data).l2EntryPacket = c.l2EntryPacket := rfl
  rw [comb_l2ExitPacket, comb_l2ExitPacket, hexists, hsame]
  by_cases hcore : core = c.l2EntryPacket.coreId
  · simp only [if_pos hcore]
    rfl
  · simp only [if_neg hcore]
    rfl

/-- With fewer than four cores the data memories reach the packets of the cores and no other
register. -/
theorem comb_withData (hcores : cfg.numCores < 4) (hexists : n'.mshrExists = n.mshrExists) :
    (comb (r.withLines lines) (c.withData data) n').next = (comb r c n).next.withLines fun core =>
      ((comb (r.withLines lines) (c.withData data) n').next.l2ExitPacket core).cacheLine := by
  refine Regs.eq_withLines (comb_exit_withData lines data hexists) (fun core => ?_) ?_ ?_ ?_ ?_ ?_ ?_ ?_
  · exact (comb_snoopReq _ _ _ _).trans (comb_snoopReq r c n core).symm
  · rw [comb_mshrs, comb_mshrs, hexists, dramMshrs_withData lines data hcores]
    rfl
  · rw [comb_freeIdx, comb_freeIdx, hexists]
    rfl
  · exact (comb_waitIdx _ _ _).trans (comb_waitIdx r c n).symm
  · exact (comb_awPacket _ _ _).trans (comb_awPacket r c n).symm
  · exact (comb_wPacket _ _ _).trans (comb_wPacket r c n).symm
  · exact (comb_arPacket _ _ _).trans (comb_arPacket r c n).symm
  · exact (comb_lrus _ _ _).trans (comb_lrus r c n).symm

end Step

/-- The two machines differ in the lines of the packets for the cores. -/
structure SameButLines (s s' : Machine cfg) : Prop where
  regs : s'.regs = s.regs.withLines fun core => (s'.regs.l2ExitPacket core).cacheLine
  waiting : s'.nets.waiting = s.nets.waiting
  mshrExists : s'.nets.mshrExists = s.nets.mshrExists

theorem SameButLines.refl (s : Machine cfg) : SameButLines s s := ⟨rfl, rfl, rfl⟩

theorem SameButLines.step {s s' : Machine cfg} (hcores : cfg.numCores < 4) (h : SameButLines s s')
    (data : cfg.Way → CacheLine) : SameButLines (s.step c) (s'.step (c.withData data)) := by
  obtain ⟨hregs, hwaiting, hexists⟩ := h
  generalize hlines : (fun core => (s'.regs.l2ExitPacket core).cacheLine) = lines at hregs
  have hwait : (s'.settle (c.withData data)).waiting = (s.settle c).waiting := by
    rw [Machine.settle, Machine.settle, comb_waiting, comb_waiting, hwaiting, hregs]
    rfl
  refine ⟨?_, hwait, ?_⟩
  · by_cases hreset : c.reset = true
    · have hreset' : (c.withData data).reset = true := hreset
      rw [Machine.step_regs_of_reset hreset, Machine.step_regs_of_reset hreset']
      rfl
    · have hrun : c.reset = false := by simpa using hreset
      have hrun' : (c.withData data).reset = false := hrun
      by_cases hacts : s.Acts c
      · have hacts' : s'.Acts (c.withData data) := ⟨hrun', hwait.trans hacts.2⟩
        rw [Machine.step_regs_of_acts hacts, Machine.step_regs_of_acts hacts', Machine.settle,
          Machine.settle, hregs]
        exact comb_withData lines data hcores hexists
      · have hacts' : ¬s'.Acts (c.withData data) := fun h => hacts ⟨hrun, hwait.symm.trans h.2⟩
        rw [Machine.step_regs_of_frozen hrun hacts, Machine.step_regs_of_frozen hrun' hacts', hlines]
        exact hregs
  · have hnets : ((s'.step (c.withData data)).nets).mshrExists =
        (comb s'.regs (c.withData data) s'.nets).mshrExists := rfl
    have hnets' : (s.step c).nets.mshrExists = (comb s.regs c s.nets).mshrExists := rfl
    rw [hnets, hnets', comb_mshrExists, comb_mshrExists, hexists, hregs]
    rfl

end Cores

/-- DRAM is asked the same, and is going to be. -/
structure SameToDram (r r' : Regs cfg) : Prop where
  mshrs : r'.mshrs = r.mshrs
  aw : r'.awPacket = r.awPacket
  w : r'.wPacket = r.wPacket
  ar : r'.arPacket = r.arPacket

theorem SameButLines.sameToDram {s s' : Machine cfg} (h : SameButLines s s') :
    SameToDram s.regs s'.regs := by
  rw [h.regs]
  exact ⟨rfl, rfl, rfl, rfl⟩

/-- A refill of a way with a dirty line, for which every core has answered. -/
def dirtyRefill (cfg : Config) : Cycle cfg where
  toDrive := { Drive.response cfg 0#512 with snoopResp := fun core => ⟨true, 0, 0#512, core⟩ }
  readData _ := 0#512
  readMeta _ := ⟨true, true, 0, .invalid, 0⟩

section DirtyRefill

variable (data : cfg.Way → CacheLine)

theorem dirtyRefill_readOrWrite :
    readOrWrite (.reset cfg) ((dirtyRefill cfg).withData data) = false :=
  Bool.and_false _

theorem dirtyRefill_not_modified :
    victimModified ((dirtyRefill cfg).withData data) (lruWay (.reset cfg)) = false := rfl

theorem dirtyRefill_active : victimActive (.reset cfg) ((dirtyRefill cfg).withData data) = true := rfl

theorem dirtyRefill_answered (hcores : 4 ≤ cfg.numCores) :
    victimAnswered (.reset cfg) ((dirtyRefill cfg).withData data) = true := by
  have hvalid : ∀ core < 4, respValid ((dirtyRefill cfg).withData data) core = true := by
    intro core hcore
    unfold respValid
    rw [select?_of_lt _ (hcore.trans_le hcores)]
    rfl
  rw [victimAnswered, dirtyRefill_not_modified, if_neg Bool.false_ne_true]
  simp [allBack, hvalid]

theorem dirtyRefill_acts (hcores : 4 ≤ cfg.numCores) :
    (Machine.fresh cfg).Acts ((dirtyRefill cfg).withData data) := by
  refine ⟨rfl, (comb_waiting _ _ _).trans ?_⟩
  have hhit : hitActive (.reset cfg) ((dirtyRefill cfg).withData data) = false := by
    rw [hitActive, dirtyRefill_readOrWrite]
    rfl
  have hregs : (Machine.fresh cfg).regs = .reset cfg := rfl
  rw [hregs, hhit, dirtyRefill_active, dirtyRefill_answered data hcores]
  rfl

theorem dirtyRefill_data (hcores : 4 ≤ cfg.numCores) :
    (((Machine.fresh cfg).run (fun _ => (dirtyRefill cfg).withData data) 1).regs.mshrs
      ⟨0, cfg.numMshrs_pos⟩).data = data (lruWay (Regs.reset cfg)) := by
  have hnone : missAllocates (.reset cfg) ((dirtyRefill cfg).withData data) false = false := by
    rw [missAllocates, misses, dirtyRefill_readOrWrite]
    rfl
  have halloc : victimAllocates (.reset cfg) ((dirtyRefill cfg).withData data) = true := by
    rw [victimAllocates, dirtyRefill_active, dirtyRefill_answered data hcores]
    rfl
  have hentry : (victimEntry (.reset cfg) ((dirtyRefill cfg).withData data)).data =
      data (lruWay (.reset cfg)) := by
    rw [victimEntry, dirtyRefill_not_modified, if_neg Bool.false_ne_true]
    rfl
  have hstep : ((Machine.fresh cfg).run (fun _ => (dirtyRefill cfg).withData data) 1).regs =
      ((Machine.fresh cfg).settle ((dirtyRefill cfg).withData data)).next :=
    Machine.step_regs_of_acts (dirtyRefill_acts data hcores)
  have hregs : (Machine.fresh cfg).regs = .reset cfg := rfl
  have hexists : (Machine.fresh cfg).nets.mshrExists = false := rfl
  have hfirst : (⟨0, cfg.numMshrs_pos⟩ : Fin cfg.numMshrs).val = (Regs.reset cfg).freeIdx.toNat :=
    rfl
  rw [hstep]
  refine (congrArg Mshr.data (congrFun (comb_mshrs _ _ _) _)).trans ?_
  rw [hregs, hexists, hnone, if_neg Bool.false_ne_true, dramMshrs, if_pos halloc, assign_apply,
    if_pos hfirst]
  exact hentry

end DirtyRefill

/-- **What the data memories hold gets to DRAM exactly in a cache for four cores or more.** -/
theorem data_unwritten_iff (cfg : Config) :
    (∀ (s : Machine cfg) (input : Nat → Cycle cfg) (data : Nat → cfg.Way → CacheLine) (k : Nat),
      s.AfterReset → SameToDram (s.run input k).regs
        (s.run (fun j => (input j).withData (data j)) k).regs) ↔ cfg.numCores < 4 := by
  constructor
  · intro hsame
    by_contra hcores
    have hall : ∀ line line' : CacheLine, line' = line := by
      intro line line'
      have hdram := hsame (.fresh cfg) (fun _ => (dirtyRefill cfg).withData fun _ => line)
        (fun _ _ => line') 1 rfl
      simp only [Cycle.withData_withData] at hdram
      have hentry := congrArg Mshr.data (congrFun hdram.mshrs ⟨0, cfg.numMshrs_pos⟩)
      have hbefore := dirtyRefill_data (fun _ => line) (Nat.le_of_not_lt hcores)
      have hafter := dirtyRefill_data (fun _ => line') (Nat.le_of_not_lt hcores)
      exact hafter.symm.trans (hentry.trans hbefore)
    have hbit := congrArg (fun line : CacheLine => line.getLsbD 0) (hall 0#512 (BitVec.allOnes 512))
    simp at hbit
  · intro hcores s input data k _
    have hrun : SameButLines (s.run input k) (s.run (fun j => (input j).withData (data j)) k) :=
      Clocked.run_related (SameButLines.refl s) (fun j _ _ h => h.step hcores (data j)) k
    exact hrun.sameToDram

/-! ### Ways -/

theorem clog2_le_iff {n k : Nat} : clog2 n ≤ k ↔ n ≤ 2 ^ k := by
  have hpos : 0 < 2 ^ k := Nat.two_pow_pos k
  unfold clog2
  by_cases hsmall : n ≤ 1
  · rw [if_pos hsmall]
    omega
  · rw [if_neg hsmall, Nat.succ_le_iff, Nat.log2_lt (by omega)]
    omega

theorem numSetsBits_le_nine_iff : cfg.numSetsBits ≤ 9 ↔ 16 ≤ cfg.ways := by
  have hpos := cfg.ways_pos
  have hsets : cfg.numSets ≤ 512 ↔ 512000 < 513 * (cfg.ways * 64) :=
    Nat.lt_succ_iff.symm.trans (Nat.div_lt_iff_lt_mul (Nat.mul_pos hpos (by decide)))
  rw [clog2_le_iff]
  refine hsets.trans ?_
  omega

theorem addr_ext {a b : Addr} (htag : a.l2Tag = b.l2Tag) (hset : a.l2SetIdx = b.l2SetIdx)
    (hoffset : a.l2Offset = b.l2Offset) : a = b := by
  have htag' := congrArg BitVec.toNat htag
  have hset' := congrArg BitVec.toNat hset
  have hoffset' := congrArg BitVec.toNat hoffset
  have ha := a.isLt
  have hb := b.isLt
  simp only [Addr.l2Tag, Addr.l2SetIdx, Addr.l2Offset, BitVec.extractLsb'_toNat,
    Nat.shiftRight_eq_div_pow] at htag' hset' hoffset'
  apply BitVec.eq_of_toNat_eq
  omega

theorem setWidth_inj {m : Nat} (hm : 10 ≤ m) {x y : BitVec 10} (h : x.setWidth m = y.setWidth m) :
    x = y := by
  have hlt : 2 ^ 10 ≤ 2 ^ m := Nat.pow_le_pow_right (by decide) hm
  have htoNat := congrArg BitVec.toNat h
  rw [BitVec.toNat_setWidth, BitVec.toNat_setWidth, Nat.mod_eq_of_lt (x.isLt.trans_le hlt),
    Nat.mod_eq_of_lt (y.isLt.trans_le hlt)] at htoNat
  exact BitVec.eq_of_toNat_eq htoNat

/-- Two cycles ask for lines in one set, and what way `w` presents there hits for both. -/
structure HitsBoth (c c' : Cycle cfg) (w : cfg.Way) : Prop where
  aligned : c.l2EntryPacket.targetAddr.l2Offset = 0
  aligned' : c'.l2EntryPacket.targetAddr.l2Offset = 0
  set : requestSet c = requestSet c'
  packet : c.readMeta w = c'.readMeta w
  hit : hit c w = true
  hit' : MultiCoreL2Cache.hit c' w = true

theorem HitsBoth.l2Tag_eq {c c' : Cycle cfg} {w : cfg.Way} (h : HitsBoth c c' w) :
    c.l2EntryPacket.targetAddr.l2Tag = c'.l2EntryPacket.targetAddr.l2Tag := by
  have hhit := h.hit
  have hhit' := h.hit'
  simp only [MultiCoreL2Cache.hit, Bool.and_eq_true, beq_iff_eq] at hhit hhit'
  rw [← hhit.2, ← hhit'.2, h.packet]

def presentsZero (cfg : Config) (addr : Addr) : Cycle cfg where
  toDrive := .request .read addr 0
  readData _ := 0#512
  readMeta _ := ⟨true, false, 0, .shared, 0⟩

theorem presentsZero_hitsBoth (hways : 16 ≤ cfg.ways) :
    HitsBoth (presentsZero cfg 0) (presentsZero cfg 0x8000) 0 := by
  have hoffset : Addr.l2Offset 0x8000 = 0 := by decide
  have htag : ((0 : Addr).l2Tag == Addr.l2Tag 0x8000) = true := by decide
  refine ⟨rfl, hoffset, ?_, rfl, beq_self_eq_true (Addr.l2Tag 0), htag⟩
  have hdvd : 2 ^ cfg.numSetsBits ∣ 512 :=
    Nat.pow_dvd_pow 2 (numSetsBits_le_nine_iff.mpr hways)
  have hset : Addr.l2SetIdx 0 = 0#10 := by decide
  have hset' : Addr.l2SetIdx 0x8000 = 512#10 := by decide
  change (Addr.l2SetIdx 0).setWidth _ = (Addr.l2SetIdx 0x8000).setWidth _
  apply BitVec.eq_of_toNat_eq
  rw [hset, hset', BitVec.toNat_setWidth, BitVec.toNat_setWidth]
  exact (Nat.zero_mod _).trans (Nat.mod_eq_zero_of_dvd hdvd).symm

/-- **A hit tells lines apart exactly in a cache of fewer than 16 ways.** -/
theorem lines_told_apart_iff (cfg : Config) :
    (∀ (c c' : Cycle cfg) (w : cfg.Way), HitsBoth c c' w →
      c.l2EntryPacket.targetAddr = c'.l2EntryPacket.targetAddr) ↔ cfg.ways < 16 := by
  constructor
  · intro hapart
    by_contra hways
    have hsame : (0 : Addr) = 0x8000 := hapart _ _ _ (presentsZero_hitsBoth (Nat.le_of_not_lt hways))
    exact absurd hsame (by decide)
  · intro hways c c' w hboth
    have hbits : 10 ≤ cfg.numSetsBits := by
      by_contra hfew
      have hmany : 16 ≤ cfg.ways := numSetsBits_le_nine_iff.mp (by omega)
      omega
    exact addr_ext hboth.l2Tag_eq (setWidth_inj hbits hboth.set)
      (hboth.aligned.trans hboth.aligned'.symm)

/-! ### MSHRs -/

/-- Three bits do not reach a ninth MSHR. -/
theorem run_mshrs_of_le {s : Machine cfg} (hreset : s.AfterReset) (input : Nat → Cycle cfg) (k : Nat)
    {i : Fin cfg.numMshrs} (hi : 8 ≤ i.val) : (s.run input k).regs.mshrs i = .zero cfg := by
  refine Machine.run_regs_invariant (fun r => r.mshrs i = .zero cfg) (fun _ _ => True) hreset rfl
    (fun s c _ hzero _ => ?_) fun _ _ => trivial
  have hfree : i.val ≠ s.regs.freeIdx.toNat := by
    have hlt := s.regs.freeIdx.isLt
    omega
  have hwait : i.val ≠ s.regs.waitIdx.toNat := by
    have hlt := s.regs.waitIdx.isLt
    omega
  rw [Machine.settle, comb_mshrs_of_ne fun _ => hfree, retiredMshrs_of_ne fun _ => hwait]
  exact hzero

theorem findsMatch_of_zero (hmshrs : 8 < cfg.numMshrs) {s : Machine cfg} (hreset : s.AfterReset)
    {input : Nat → Cycle cfg} {k : Nat} (hmiss : misses (s.run input k).regs (input k) = true)
    (haddr : (input k).l2EntryPacket.targetAddr = 0) : FindsMatch (s.run input k) (input k) := by
  refine ⟨hmiss, decide_eq_true ⟨⟨8, hmshrs⟩, ?_⟩⟩
  rw [run_mshrs_of_le hreset input k (Nat.le_refl 8), haddr]
  rfl

/-- **With a ninth MSHR the line at address 0 cannot be fetched**, and the first miss for it is the
last one of all that could have been served. -/
theorem zero_line_locks_out (hmshrs : 8 < cfg.numMshrs) (s : Machine cfg) (hreset : s.AfterReset)
    (input : Nat → Cycle cfg) (k : Nat) (hmiss : misses (s.run input k).regs (input k) = true)
    (haddr : (input k).l2EntryPacket.targetAddr = 0) :
    ∀ j, k ≤ j → LockedOut (s.run input j) (input j) := by
  have hmatch := findsMatch_of_zero hmshrs hreset hmiss haddr
  intro j hj
  rcases Nat.eq_or_lt_of_le hj with rfl | hlater
  · exact lockedOut_of_findsMatch hmatch
  · exact lockedOut_of_mshrExists (mshrExists_of_findsMatch hlater hmatch)

def nineMshrs : Config := { Config.shipped with numMshrs := 9, numMshrs_pos := by decide }

/-- Core 1 reads the line at address 0, and core 2 another one. -/
def readsZero : Nat → Cycle nineMshrs
  | 0 => { Cycle.idle nineMshrs with toDrive := .request .read 0 ⟨1, by decide⟩ }
  | _ + 1 => { Cycle.idle nineMshrs with toDrive := .request .read 0x40 ⟨2, by decide⟩ }

theorem readsZero_lockedOut :
    LockedOut ((Machine.fresh nineMshrs).run readsZero 1) (readsZero 1) :=
  zero_line_locks_out (by decide) (.fresh nineMshrs) (Machine.fresh_afterReset _) readsZero 0
    (by decide +kernel) rfl 1 (by decide)

end MultiCoreL2Cache
