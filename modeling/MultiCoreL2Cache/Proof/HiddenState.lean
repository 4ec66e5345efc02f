import MultiCoreL2Cache.Proof.Blind

/-!
# What the nets remember

The block gives no default to `waiting`, `mshr_exists` and the write address of a tag memory, so these
keep their values from cycle to cycle and through a reset. Two systems with the same registers and the
same memories have the same future exactly where they agree on what the three of them still decide.
-/

namespace MultiCoreL2Cache

open MemDP Packed

variable {cfg : Config}

/-- An index outside the memory writes nothing, whichever it is. -/
def SameCell (a b : cfg.SetIdx) : Prop := a = b ∨ (cfg.numSets ≤ a.toNat ∧ cfg.numSets ≤ b.toNat)

/-- Agreement on the nets that decide what later cycles do. A frozen cache asks for no MSHR, and with
no way hit only way 0 has its tags written. -/
structure SameLatches (n n' : Nets cfg) : Prop where
  waiting : n.waiting = n'.waiting
  mshrExists : n.waiting = false → n.mshrExists = n'.mshrExists
  writeMetaAddr : SameCell (n.writeMetaAddr 0) (n'.writeMetaAddr 0)

/-! ### What a closed cycle does to the latches -/

section Settled

variable (s : System cfg) (d : Drive cfg)

theorem settled_waiting : (s.settled d).waiting = s.nets.waiting := by
  rw [System.settled_eq, comb_waiting, hitActive_of_blind (s.openCycle_blind d),
    victimActive_of_blind (s.openCycle_blind d)]
  rfl

theorem settled_mshrExists :
    (s.settled d).mshrExists =
      (s.nets.mshrExists || (misses s.regs d.bare && mshrMatch s.regs d.bare)) := by
  have hmisses : misses s.regs (s.openCycle d) = misses s.regs d.bare :=
    misses_bare (s.openCycle_blind d) s.regs
  rw [System.settled_eq, comb_mshrExists, hmisses]
  rfl

theorem settled_writeEn :
    (s.settled d).writeEn = fun w => d.rPacket.rValid && decide (w = lruWay s.regs) := by
  rw [System.settled_eq, comb_writeEn]
  rfl

theorem settled_writeAddr :
    (s.settled d).writeAddr = fun w =>
      if d.rPacket.rValid && decide (w = lruWay s.regs) then
        (mshrAt s.regs.mshrs s.regs.waitIdx).addr.l2SetIdx.setWidth cfg.numSetsBits
      else s.nets.writeAddr w := by
  rw [System.settled_eq, comb_writeAddr]
  rfl

theorem settled_writeMetaEn :
    (s.settled d).writeMetaEn = fun w =>
      !stalled s.regs d.bare &&
        decide (d.l2EntryPacket.reqType = .upgrade ∨ d.l2EntryPacket.reqType = .evict) &&
        decide (w = 0) := by
  have hblind := s.openCycle_blind d
  have hwrites : writesMeta s.regs (s.openCycle d) = (!stalled s.regs d.bare &&
      decide (d.l2EntryPacket.reqType = .upgrade ∨ d.l2EntryPacket.reqType = .evict)) := by
    have hkind : (s.openCycle d).l2EntryPacket.reqType = d.l2EntryPacket.reqType := rfl
    have hstalled : stalled s.regs (s.openCycle d) = stalled s.regs d.bare := rfl
    unfold writesMeta
    rw [hkind, hstalled, hitAny_of_blind hblind]
    cases d.l2EntryPacket.reqType <;> simp
  rw [System.settled_eq, comb_writeMetaEn, hitWay_of_blind hblind, hwrites]

theorem settled_writeMetaAddr :
    (s.settled d).writeMetaAddr = fun w =>
      if d.rPacket.rValid && decide (w = lruWay s.regs) then
        (mshrAt s.regs.mshrs s.regs.waitIdx).addr.l2SetIdx.setWidth cfg.numSetsBits
      else s.nets.writeMetaAddr w := by
  rw [System.settled_eq, comb_writeMetaAddr]
  rfl

end Settled

/-! ### Agreement is kept -/

structure Alike (s t : System cfg) : Prop where
  regs : s.regs = t.regs
  arrays : s.arrays = t.arrays
  latches : SameLatches s.nets t.nets

variable {s t : System cfg} {d : Drive cfg}

theorem Alike.settled_latches (h : Alike s t) : SameLatches (s.settled d) (t.settled d) := by
  obtain ⟨hregs, -, hwaiting, hexists, haddr⟩ := h
  refine ⟨?_, fun hidle => ?_, ?_⟩
  · rw [settled_waiting, settled_waiting, hwaiting]
  · rw [settled_waiting] at hidle
    rw [settled_mshrExists, settled_mshrExists, hexists hidle, hregs]
  · rw [settled_writeMetaAddr, settled_writeMetaAddr, hregs]
    dsimp only
    split
    · exact .inl rfl
    · exact haddr

/-- The block reads `mshr_exists` only to decide about an MSHR. -/
theorem comb_next_congr {r : Regs cfg} {c : Cycle cfg} {n n' : Nets cfg}
    (h : n.mshrExists = n'.mshrExists) : (comb r c n).next = (comb r c n').next := by
  ext1
  · rw [comb_l2ExitPacket, comb_l2ExitPacket, h]
  · funext core
    rw [comb_snoopReq, comb_snoopReq]
  · rw [comb_mshrs, comb_mshrs, h]
  · rw [comb_freeIdx, comb_freeIdx, h]
  · rw [comb_waitIdx, comb_waitIdx]
  · rw [comb_awPacket, comb_awPacket]
  · rw [comb_wPacket, comb_wPacket]
  · rw [comb_arPacket, comb_arPacket]
  · rw [comb_lrus, comb_lrus]

theorem Alike.step_regs (h : Alike s t) : (s.step d).regs = (t.step d).regs := by
  have hs : (s.step d).regs = clocked d.reset s.regs (s.settled d) := rfl
  have ht : (t.step d).regs = clocked d.reset t.regs (t.settled d) := rfl
  rw [hs, ht]
  unfold clocked
  rw [settled_waiting, settled_waiting, ← h.latches.waiting, ← h.regs]
  by_cases hwaiting : s.nets.waiting = true
  · rw [if_pos hwaiting, if_pos hwaiting]
  · have hidle : s.nets.waiting = false := by simpa using hwaiting
    rw [if_neg hwaiting, if_neg hwaiting, System.settled_next, System.settled_next, ← h.regs,
      comb_next_congr (h.latches.mshrExists hidle)]

theorem Alike.step_arrays (h : Alike s t) : (s.step d).arrays = (t.step d).arrays := by
  have hs : (s.step d).arrays = s.arrays.edge d.reset d.toUndriven (s.settled d) := rfl
  have ht : (t.step d).arrays = t.arrays.edge d.reset d.toUndriven (t.settled d) := rfl
  rw [hs, ht, ← h.arrays]
  have hdata : ∀ w, posedge d.reset (dataWrite d.toUndriven (s.settled d) w) (s.arrays.data w) =
      posedge d.reset (dataWrite d.toUndriven (t.settled d) w) (s.arrays.data w) := by
    intro w
    unfold dataWrite
    rw [settled_writeEn, settled_writeEn, settled_writeAddr, settled_writeAddr, ← h.regs]
    refine posedge_congr rfl fun hen => ⟨rfl, .inl ?_⟩
    dsimp only at hen ⊢
    rw [if_pos hen, if_pos hen]
  have htags : ∀ w, posedge d.reset (tagWrite d.toUndriven (s.settled d) w) (s.arrays.tags w) =
      posedge d.reset (tagWrite d.toUndriven (t.settled d) w) (s.arrays.tags w) := by
    intro w
    unfold tagWrite
    rw [settled_writeMetaEn, settled_writeMetaEn, ← h.regs]
    refine posedge_congr rfl fun hen => ⟨rfl, ?_⟩
    have hw : w = 0 := by
      simp only [Bool.and_eq_true, decide_eq_true_eq] at hen
      exact hen.2
    rw [hw]
    exact h.settled_latches.writeMetaAddr
  unfold Arrays.edge
  rw [funext hdata, funext htags]

theorem alike_step (h : Alike s t) : Alike (s.step d) (t.step d) :=
  ⟨h.step_regs, h.step_arrays, h.settled_latches⟩

theorem alike_run (h : Alike s t) (input : Nat → Drive cfg) (k : Nat) :
    Alike (s.run input k) (t.run input k) :=
  Clocked.run_related h (fun _ _ _ => alike_step) k

/-! ### Telling two systems apart -/

/-- The same registers, outputs and memories after every input. The outputs are registers, or driven
by nothing. -/
def Indistinguishable (s t : System cfg) : Prop :=
  ∀ (input : Nat → Drive cfg) (k : Nat),
    (s.run input k).regs = (t.run input k).regs ∧ (s.run input k).arrays = (t.run input k).arrays

theorem Alike.indistinguishable (h : Alike s t) : Indistinguishable s t := fun input k =>
  ⟨(alike_run h input k).regs, (alike_run h input k).arrays⟩

theorem Indistinguishable.symm (h : Indistinguishable s t) : Indistinguishable t s :=
  fun input k => ⟨(h input k).1.symm, (h input k).2.symm⟩

theorem Indistinguishable.step (h : Indistinguishable s t) (d : Drive cfg) :
    Indistinguishable (s.step d) (t.step d) := by
  intro input k
  have hlater := h (Clocked.cons d input) (k + 1)
  rw [System.run, System.run, Clocked.run_cons, Clocked.run_cons] at hlater
  exact hlater

/-- A response tells whether the cache is frozen. -/
theorem waitIdx_response (s : System cfg) (line : CacheLine) :
    (s.step (.response cfg line)).regs.waitIdx =
      if s.nets.waiting then s.regs.waitIdx else advance cfg.numMshrs s.regs.waitIdx := by
  have hstep : (s.step (.response cfg line)).regs =
      clocked false s.regs (s.settled (.response cfg line)) := rfl
  rw [hstep]
  unfold clocked
  rw [settled_waiting, System.settled_next]
  cases s.nets.waiting with
  | true => rfl
  | false =>
      simp only [Bool.false_eq_true, if_false, comb_waitIdx]
      rfl

theorem waiting_of_indistinguishable {s t : System .shipped} (h : Indistinguishable s t)
    (hs : s.nets.waiting = false) : t.nets.waiting = false := by
  have hregs : s.regs = t.regs := (h (fun _ => .idle _) 0).1
  have hnext : (s.step (.response _ 0#512)).regs = (t.step (.response _ 0#512)).regs :=
    (h.step (.response _ 0#512) (fun _ => .idle _) 0).1
  have hwait := congrArg Regs.waitIdx hnext
  rw [waitIdx_response, waitIdx_response, hs, ← hregs] at hwait
  by_contra ht
  have hfrozen : t.nets.waiting = true := by simpa using ht
  simp only [hfrozen, Bool.false_eq_true, if_false, if_true] at hwait
  have hadvance : ∀ idx : BitVec 3, advance Config.shipped.numMshrs idx ≠ idx := by decide
  exact hadvance _ hwait

def resetDrive (cfg : Config) : Drive cfg := { Drive.idle cfg with reset := true }

theorem idle_not_misses (r : Regs cfg) : misses r (resetDrive cfg).bare = false := by
  rw [misses_of_blind (resetDrive cfg).bare_blind]
  simp [readOrWrite, resetDrive, Drive.bare, Drive.idle, Inputs.idle, L2EntryPacket.zero]

theorem reset_latches (s : System cfg) :
    (s.step (resetDrive cfg)).AfterReset ∧
      (s.step (resetDrive cfg)).nets.waiting = s.nets.waiting ∧
      (s.step (resetDrive cfg)).nets.mshrExists = s.nets.mshrExists ∧
      (s.step (resetDrive cfg)).nets.writeMetaAddr = s.nets.writeMetaAddr := by
  have hnets : (s.step (resetDrive cfg)).nets = s.settled (resetDrive cfg) := rfl
  refine ⟨⟨rfl, rfl⟩, ?_, ?_, ?_⟩
  · rw [hnets, settled_waiting]
  · rw [hnets, settled_mshrExists, idle_not_misses, Bool.false_and, Bool.or_false]
  · rw [hnets, settled_writeMetaAddr]
    rfl

/-- After a reset the first READ tells whether `mshr_exists` was set before it. -/
theorem freeIdx_read {s : System .shipped} (hreset : s.AfterReset)
    (hwaiting : s.nets.waiting = false) :
    (s.step (.request .read 0x40 0)).regs.freeIdx = if s.nets.mshrExists then 0 else 1 := by
  have hstep : (s.step (.request .read 0x40 0)).regs =
      clocked false s.regs (s.settled (.request .read 0x40 0)) := rfl
  rw [hstep]
  unfold clocked
  rw [settled_waiting, System.settled_next, hreset.1, hwaiting]
  simp only [Bool.false_eq_true, if_false, comb_freeIdx]
  have halloc : ∀ exists', missAllocates (.reset .shipped)
      (Drive.request .read 0x40 0 : Drive .shipped).bare exists' = !exists' := by decide +kernel
  have hvictim := victimAllocates_of_blind (r := Regs.reset .shipped)
    (Drive.request .read 0x40 0 : Drive .shipped).bare_blind
  rw [halloc, hvictim]
  cases s.nets.mshrExists <;> rfl

theorem mshrExists_of_indistinguishable {s t : System .shipped} (h : Indistinguishable s t)
    (hs : s.nets.waiting = false) : s.nets.mshrExists = t.nets.mshrExists := by
  have ht := waiting_of_indistinguishable h hs
  obtain ⟨hsreset, hswaiting, hsexists, -⟩ := reset_latches s
  obtain ⟨htreset, htwaiting, htexists, -⟩ := reset_latches t
  have hnext := ((h.step (resetDrive _)).step (.request .read 0x40 0) (fun _ => .idle _) 0).1
  have hfree : ((s.step (resetDrive _)).step (.request .read 0x40 0)).regs.freeIdx =
      ((t.step (resetDrive _)).step (.request .read 0x40 0)).regs.freeIdx :=
    congrArg Regs.freeIdx hnext
  rw [freeIdx_read hsreset (hswaiting.trans hs), freeIdx_read htreset (htwaiting.trans ht),
    hsexists, htexists] at hfree
  cases hs' : s.nets.mshrExists <;> cases ht' : t.nets.mshrExists <;> simp_all

def markDrive : Drive .shipped :=
  { Drive.idle .shipped with writeMeta := fun _ => ⟨false, false, 0, .invalid, 1⟩ }

/-- After a reset the first UPGRADE writes where the last refill before it wrote. -/
theorem tags_mark {s : System .shipped} (hreset : s.AfterReset)
    (i : Fin Config.shipped.numSets) :
    (s.step markDrive).arrays.tags 0 i =
      if i.val = (s.nets.writeMetaAddr 0).toNat then 1 else 0 := by
  have hstep : (s.step markDrive).arrays.tags 0 i =
      posedge false (tagWrite markDrive.toUndriven (s.settled markDrive) 0) (s.arrays.tags 0) i := rfl
  have hpacket : (markDrive.writeMeta 0).toBits.setWidth Config.shipped.metaWidth = 1 := by
    decide +kernel
  have hword : (tagWrite markDrive.toUndriven (s.settled markDrive) 0).wdata = 1 := hpacket
  have hen : (s.settled markDrive).writeMetaEn 0 = true := by
    rw [settled_writeMetaEn, hreset.1]
    decide +kernel
  have haddr : (s.settled markDrive).writeMetaAddr 0 = s.nets.writeMetaAddr 0 := by
    rw [settled_writeMetaAddr]
    rfl
  rw [hstep, posedge_apply, hword, hreset.2]
  unfold tagWrite
  rw [hen, haddr]
  simp [Arrays.zero]

theorem writeMetaAddr_of_indistinguishable {s t : System .shipped} (h : Indistinguishable s t) :
    SameCell (s.nets.writeMetaAddr 0) (t.nets.writeMetaAddr 0) := by
  obtain ⟨hsreset, -, -, hsaddr⟩ := reset_latches s
  obtain ⟨htreset, -, -, htaddr⟩ := reset_latches t
  have hnext := ((h.step (resetDrive _)).step markDrive (fun _ => .idle _) 0).2
  have hmark : ∀ i : Fin Config.shipped.numSets,
      (i.val = (s.nets.writeMetaAddr 0).toNat ↔ i.val = (t.nets.writeMetaAddr 0).toNat) := by
    intro i
    have htags : ((s.step (resetDrive _)).step markDrive).arrays.tags 0 i =
        ((t.step (resetDrive _)).step markDrive).arrays.tags 0 i :=
      congrArg (fun a : Arrays .shipped => a.tags 0 i) hnext
    rw [tags_mark hsreset, tags_mark htreset, hsaddr, htaddr] at htags
    have hne : (1 : BitVec Config.shipped.metaWidth) ≠ 0 := by decide
    constructor
    · intro hi
      by_contra hj
      rw [if_pos hi, if_neg hj] at htags
      exact hne htags
    · intro hj
      by_contra hi
      rw [if_neg hi, if_pos hj] at htags
      exact hne htags.symm
  by_cases hin : (s.nets.writeMetaAddr 0).toNat < Config.shipped.numSets
  · exact .inl (BitVec.eq_of_toNat_eq ((hmark ⟨_, hin⟩).mp rfl))
  · by_cases hin' : (t.nets.writeMetaAddr 0).toNat < Config.shipped.numSets
    · exact .inl (BitVec.eq_of_toNat_eq ((hmark ⟨_, hin'⟩).mpr rfl).symm)
    · exact .inr ⟨Nat.le_of_not_lt hin, Nat.le_of_not_lt hin'⟩

/-- **The hidden state, exactly.** -/
theorem indistinguishable_iff (s t : System .shipped) (hregs : s.regs = t.regs)
    (harrays : s.arrays = t.arrays) : Indistinguishable s t ↔ SameLatches s.nets t.nets := by
  constructor
  · intro h
    refine ⟨?_, mshrExists_of_indistinguishable h, writeMetaAddr_of_indistinguishable h⟩
    cases hs : s.nets.waiting with
    | false => exact (waiting_of_indistinguishable h hs).symm
    | true =>
        by_contra hne
        have ht : t.nets.waiting = false := by simpa using Ne.symm hne
        rw [waiting_of_indistinguishable h.symm ht] at hs
        cases hs
  · intro h
    exact (Alike.mk hregs harrays h).indistinguishable

/-- A READ that is repeated while its MSHR is outstanding, and a reset. -/
def missedTwice : Nat → Drive .shipped
  | 0 => .request .read 0x40 1
  | 1 => .request .read 0x40 1
  | _ + 2 => resetDrive _

def resetOnly : Nat → Drive .shipped := fun _ => resetDrive _

theorem missedTwice_afterReset : ((System.fresh .shipped).run missedTwice 3).AfterReset :=
  (reset_latches ((System.fresh .shipped).run missedTwice 2)).1

theorem resetOnly_afterReset : ((System.fresh .shipped).run resetOnly 3).AfterReset :=
  (reset_latches ((System.fresh .shipped).run resetOnly 2)).1

theorem missedTwice_indistinguishable_iff :
    Indistinguishable ((System.fresh .shipped).run missedTwice 3)
        ((System.fresh .shipped).run resetOnly 3) ↔
      SameLatches ((System.fresh .shipped).run missedTwice 3).nets
        ((System.fresh .shipped).run resetOnly 3).nets :=
  indistinguishable_iff _ _
    (missedTwice_afterReset.1.trans resetOnly_afterReset.1.symm)
    (missedTwice_afterReset.2.trans resetOnly_afterReset.2.symm)

/-- Two histories of one cache that both end with a reset. -/
theorem past_survives_reset :
    ¬∀ (s : System .shipped) (past past' : Nat → Drive .shipped) (m m' : Nat),
      (s.run past m).regs = (s.run past' m').regs →
      (s.run past m).arrays = (s.run past' m').arrays →
      Indistinguishable (s.run past m) (s.run past' m') := by
  intro hclaim
  have hsame := hclaim (.fresh _) missedTwice resetOnly 3 3
    (missedTwice_afterReset.1.trans resetOnly_afterReset.1.symm)
    (missedTwice_afterReset.2.trans resetOnly_afterReset.2.symm)
  have hexists := mshrExists_of_indistinguishable hsame (by decide +kernel)
  exact absurd hexists (by decide +kernel)

end MultiCoreL2Cache
