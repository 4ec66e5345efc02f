import MultiCoreL2Cache.Proof.MissLog

/-!
# What the cache does to memory

With its memories connected the cache never hits, and no line gets through it. A core is shown zeros,
and so is DRAM: `w_data` is what a WRITE miss finds in its MSHR, which nothing ever fills. All that the
cache can do to memory is to clear the lines that cores asked to write.
-/

namespace MultiCoreL2Cache

open Packed

variable {cfg : Config} {s : System cfg} {input : Nat → Drive cfg}

/-- No line in any register, and no write but of the addresses in `A`. -/
structure CarriesNothing (A : Addr → Prop) (r : Regs cfg) : Prop where
  exit : ∀ core, r.l2ExitPacket core =
    { L2ExitPacket.zero with stall := (r.l2ExitPacket core).stall }
  data : ∀ i, (r.mshrs i).data = 0#512
  wData : r.wPacket.wData = 0#512
  mshr : ∀ i, (r.mshrs i).writeReq = true → A (r.mshrs i).addr
  awAddr : r.awPacket.awValid = true → A r.awPacket.awAddr

theorem carriesNothing_reset (A : Addr → Prop) : CarriesNothing A (.reset cfg) where
  exit _ := rfl
  data _ := rfl
  wData := rfl
  mshr _ h := nomatch h
  awAddr h := nomatch h

section Step

variable {A A' : Addr → Prop} {r : Regs cfg} {d : Drive cfg} {n : Nets cfg}

theorem CarriesNothing.mono (h : CarriesNothing A r) (hsub : ∀ a, A a → A' a) :
    CarriesNothing A' r :=
  ⟨h.exit, h.data, h.wData, fun i hi => hsub _ (h.mshr i hi), fun hvalid => hsub _ (h.awAddr hvalid)⟩

theorem mshrAt_data (h : CarriesNothing A r) (idx : BitVec 3) : (mshrAt r.mshrs idx).data = 0#512 := by
  by_cases hlt : idx.toNat < cfg.numMshrs
  · rw [mshrAt_of_lt _ hlt]
    exact h.data _
  · rw [mshrAt_of_not_lt _ hlt]
    rfl

theorem mshrAt_written (h : CarriesNothing A r) {idx : BitVec 3}
    (hvalid : (mshrAt r.mshrs idx).valid = true) (hwrite : (mshrAt r.mshrs idx).writeReq = true) :
    A (mshrAt r.mshrs idx).addr := by
  have hlt := lt_of_mshrAt_valid hvalid
  rw [mshrAt_of_lt _ hlt] at hwrite ⊢
  exact h.mshr _ hwrite

theorem comb_exit (h : CarriesNothing A r) (core : cfg.Core) :
    (comb r d.bare n).next.l2ExitPacket core =
      { L2ExitPacket.zero with
        stall := ((comb r d.bare n).next.l2ExitPacket core).stall } := by
  have hold := h.exit core
  have hline : (r.l2ExitPacket core).cacheLine = 0#512 := by
    rw [hold]
    rfl
  rw [comb_l2ExitPacket]
  dsimp only
  split
  · unfold exitAfter
    rw [hline, MissLog.servedLine_getD, hold]
    rfl
  · exact hold

/-- One cycle adds at most the address of a WRITE to those that DRAM is written at. -/
theorem CarriesNothing.comb (h : CarriesNothing A r) (hsub : ∀ a, A a → A' a)
    (hnew : d.l2EntryPacket.reqType = .write → A' d.l2EntryPacket.targetAddr) :
    CarriesNothing A' (comb r d.bare n).next := by
  have hmshrs : ∀ i, ((MultiCoreL2Cache.comb r d.bare n).next.mshrs i).data = 0#512 ∧
      (((MultiCoreL2Cache.comb r d.bare n).next.mshrs i).writeReq = true →
        A' ((MultiCoreL2Cache.comb r d.bare n).next.mshrs i).addr) := by
    refine comb_mshrs_forall (fun entry => entry.data = 0#512 ∧
        (entry.writeReq = true → A' entry.addr)) (fun i => ⟨h.data i, fun hi => hsub _ (h.mshr i hi)⟩)
      (fun _ hentry => hentry) ?_ ?_
    · intro hvictim
      rw [victimAllocates_of_blind d.bare_blind] at hvictim
      cases hvictim
    · rintro - entry ⟨hdata, -⟩
      exact ⟨hdata, fun hwrite => hnew (of_decide_eq_true hwrite)⟩
  refine ⟨comb_exit h, fun i => (hmshrs i).1, ?_, fun i => (hmshrs i).2, ?_⟩
  · rw [comb_wPacket]
    split
    · exact mshrAt_data h _
    · exact h.wData
  · rw [comb_awPacket]
    split
    · rename_i hissues
      simp only [issuesWrite, Bool.and_eq_true] at hissues
      exact fun _ => hsub _ (mshrAt_written h hissues.1.1 hissues.1.2)
    · exact fun hvalid => hsub _ (h.awAddr hvalid)

end Step

/-- A core has asked to write the line at `a` before cycle `k`. -/
def WrittenBefore (input : Nat → Drive cfg) (k : Nat) (a : Addr) : Prop :=
  ∃ j < k, (input j).l2EntryPacket.reqType = .write ∧ (input j).l2EntryPacket.targetAddr = a

theorem WrittenBefore.mono {k l : Nat} {a : Addr} (h : WrittenBefore input k a) (hle : k ≤ l) :
    WrittenBefore input l a := by
  obtain ⟨j, hj, hasked⟩ := h
  exact ⟨j, hj.trans_le hle, hasked⟩

theorem run_carriesNothing (hreset : s.AfterReset) (k : Nat) :
    CarriesNothing (WrittenBefore input k) (s.run input k).regs := by
  induction k with
  | zero =>
      have hregs : (s.run input 0).regs = .reset cfg := hreset.1
      rw [hregs]
      exact carriesNothing_reset _
  | succ k ih =>
      have hregs : (s.run input (k + 1)).regs =
          clocked (input k).reset (s.run input k).regs ((s.run input k).settled (input k)) := rfl
      have hsub : ∀ a, WrittenBefore input k a → WrittenBefore input (k + 1) a := fun a h =>
        h.mono (Nat.le_succ k)
      rw [hregs]
      unfold clocked
      split
      · exact carriesNothing_reset _
      · split
        · exact ih.mono hsub
        · rw [System.settled_next]
          exact ih.comb hsub fun hwrite => ⟨k, Nat.lt_succ_self k, hwrite, rfl⟩

/-! ### A DRAM behind the cache -/

/-- A DRAM that changes a line only to one that it has been shown, at an address that it has been
shown, whichever of them it takes for a pair. -/
def Stores (s : System cfg) (input : Nat → Drive cfg) (memory : Nat → Addr → CacheLine) : Prop :=
  ∀ k a, memory (k + 1) a = memory k a ∨
    ∃ i ≤ k, ∃ j ≤ k,
      (s.run input i).regs.awPacket.awValid = true ∧ (s.run input i).regs.awPacket.awAddr = a ∧
      (s.run input j).regs.wPacket.wValid = true ∧
      memory (k + 1) a = (s.run input j).regs.wPacket.wData

/-- Every core has been shown at most its stall bit, and memory has its first contents but for lines
that cores asked to write. Those are zero. -/
structure OnlyErases (s : System cfg) (input : Nat → Drive cfg) (memory : Nat → Addr → CacheLine)
    (k : Nat) : Prop where
  replies : ∀ core, (s.run input k).regs.l2ExitPacket core =
    { L2ExitPacket.zero with stall := ((s.run input k).regs.l2ExitPacket core).stall }
  memory : ∀ a, memory k a = memory 0 a ∨ (memory k a = 0#512 ∧ WrittenBefore input k a)

/-- **The cache moves no data, and all it does to memory is to erase.** -/
theorem memory_only_erased (s : System cfg) (hreset : s.AfterReset) (input : Nat → Drive cfg)
    (memory : Nat → Addr → CacheLine) (hstores : Stores s input memory) (k : Nat) :
    OnlyErases s input memory k := by
  refine ⟨(run_carriesNothing hreset k).exit, fun a => ?_⟩
  induction k with
  | zero => exact .inl rfl
  | succ k ih =>
      rcases hstores k a with hkept | ⟨i, hi, j, -, hvalid, rfl, -, hdata⟩
      · rw [hkept]
        rcases ih with hfirst | ⟨hzero, hwritten⟩
        · exact .inl hfirst
        · exact .inr ⟨hzero, hwritten.mono (Nat.le_succ k)⟩
      · have hwritten := (run_carriesNothing hreset i).awAddr hvalid
        have hzero := hdata.trans (run_carriesNothing hreset j).wData
        exact .inr ⟨hzero, hwritten.mono (hi.trans (Nat.le_succ k))⟩

/-- Core 1 writes a line, and DRAM takes address and data in the cycle after. -/
def writeAccepted : Nat → Drive .shipped
  | 0 => .request .write 0x40 1
  | 1 => { Drive.idle .shipped with awReady := true, wReady := true }
  | _ + 2 => .idle _

/-- DRAM holds the same line everywhere, until the write arrives. -/
def memoryWritten : Nat → Addr → CacheLine
  | 0, _ | 1, _ | 2, _ => 7#512
  | _ + 3, a => if a = 0x40 then 0#512 else 7#512

theorem writeAccepted_stores : Stores (.fresh .shipped) writeAccepted memoryWritten := by
  intro k a
  rcases k with _ | _ | _ | k
  · exact .inl rfl
  · exact .inl rfl
  · by_cases ha : a = 0x40
    · subst ha
      refine .inr ⟨2, Nat.le_refl 2, 2, Nat.le_refl 2, ?_, ?_, ?_, ?_⟩ <;> decide +kernel
    · exact .inl (if_neg ha)
  · exact .inl rfl

theorem writeAccepted_erases : OnlyErases (.fresh .shipped) writeAccepted memoryWritten 5 :=
  memory_only_erased _ ⟨rfl, rfl⟩ writeAccepted memoryWritten writeAccepted_stores 5

end MultiCoreL2Cache
