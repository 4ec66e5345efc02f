import MultiCoreL2Cache.Proof.MshrRing
import MultiCoreL2Cache.Proof.Origins

/-!
# Requests to DRAM

The issue logic reads the MSHRs as they were before the cycle, at the place where `wait_idx` will be
after it. The entry there is neither the one that retires nor the one that is filled, so what a channel
is loaded with is the head of the queue that the cycle leaves. A channel is loaded only when it is
ready: a packet that DRAM holds back stays as it is.
-/

namespace MultiCoreL2Cache

variable {cfg : Config} {s : Machine cfg} {c : Cycle cfg}

/-! ### Which cycles load a channel -/

def LoadsRead (s : Machine cfg) (c : Cycle cfg) : Prop :=
  s.Acts c ∧ (issuesRead s.regs c && c.arReady) = true

def LoadsWriteAddr (s : Machine cfg) (c : Cycle cfg) : Prop :=
  s.Acts c ∧ (issuesWrite s.regs c && c.awReady) = true

def LoadsWriteLine (s : Machine cfg) (c : Cycle cfg) : Prop :=
  s.Acts c ∧ (issuesWrite s.regs c && c.wReady) = true

instance (s : Machine cfg) (c : Cycle cfg) : Decidable (LoadsRead s c) := instDecidableAnd

instance (s : Machine cfg) (c : Cycle cfg) : Decidable (LoadsWriteAddr s c) := instDecidableAnd

instance (s : Machine cfg) (c : Cycle cfg) : Decidable (LoadsWriteLine s c) := instDecidableAnd

/-- Whatever cycle `k` loads in a channel comes from the MSHR at `wait_idx` after it, a read entry
from one that holds a READ presented before. A channel that it does not load keeps its packet, and so
does the other direction of one that it loads. -/
structure RequestsFromHead (s : Machine cfg) (input : Nat → Cycle cfg) (k : Nat) : Prop where
  read : LoadsRead (s.run input k) (input k) →
    (s.run input (k + 1)).regs.head.valid = true ∧
    (s.run input (k + 1)).regs.head.writeReq = false ∧
    (s.run input (k + 1)).regs.arPacket =
      { arAddr := (s.run input (k + 1)).regs.head.addr, arValid := true, arProt := 0 } ∧
    ∃ j < k, (input j).l2EntryPacket.reqType = .read ∧
      (input j).l2EntryPacket.targetAddr = (s.run input (k + 1)).regs.head.addr ∧
      (input j).l2EntryPacket.coreId = (s.run input (k + 1)).regs.head.coreId
  writeAddr : LoadsWriteAddr (s.run input k) (input k) →
    (s.run input (k + 1)).regs.head.valid = true ∧
    (s.run input (k + 1)).regs.head.writeReq = true ∧
    (s.run input (k + 1)).regs.awPacket =
      { awAddr := (s.run input (k + 1)).regs.head.addr, awValid := true, awProt := 0 }
  writeLine : LoadsWriteLine (s.run input k) (input k) →
    (s.run input (k + 1)).regs.head.valid = true ∧
    (s.run input (k + 1)).regs.head.writeReq = true ∧
    (s.run input (k + 1)).regs.wPacket =
      { wData := (s.run input (k + 1)).regs.head.data, wValid := true, wStrb := BitVec.allOnes 64 }
  readKept : (input k).reset = false → ¬LoadsRead (s.run input k) (input k) →
    (s.run input (k + 1)).regs.arPacket = (s.run input k).regs.arPacket
  writeAddrKept : (input k).reset = false → ¬LoadsWriteAddr (s.run input k) (input k) →
    (s.run input (k + 1)).regs.awPacket = (s.run input k).regs.awPacket
  writeLineKept : (input k).reset = false → ¬LoadsWriteLine (s.run input k) (input k) →
    (s.run input (k + 1)).regs.wPacket = (s.run input k).regs.wPacket
  readAlone : LoadsRead (s.run input k) (input k) →
    (s.run input (k + 1)).regs.awPacket = (s.run input k).regs.awPacket ∧
    (s.run input (k + 1)).regs.wPacket = (s.run input k).regs.wPacket
  writeAlone : LoadsWriteAddr (s.run input k) (input k) ∨ LoadsWriteLine (s.run input k) (input k) →
    (s.run input (k + 1)).regs.arPacket = (s.run input k).regs.arPacket

theorem not_issuesWrite_of_issuesRead {r : Regs cfg} (h : issuesRead r c = true) :
    issuesWrite r c = false := by
  unfold issuesRead at h
  simp only [Bool.and_eq_true, Bool.not_eq_true'] at h
  rw [issuesWrite, h.2, Bool.and_false]

theorem LoadsRead.not_loadsWrite (h : LoadsRead s c) :
    ¬LoadsWriteAddr s c ∧ ¬LoadsWriteLine s c := by
  have hread : issuesRead s.regs c = true := ((Bool.and_eq_true _ _).mp h.2).1
  unfold LoadsWriteAddr LoadsWriteLine
  rw [not_issuesWrite_of_issuesRead hread]
  simp

/-! ### Channels that are not loaded -/

theorem step_arPacket (hreset : c.reset = false) (h : ¬LoadsRead s c) :
    (s.step c).regs.arPacket = s.regs.arPacket := by
  refine Machine.step_keeps Regs.arPacket hreset fun hacts => ?_
  rw [Machine.settle, comb_arPacket, if_neg fun hload => h ⟨hacts, hload⟩]

theorem step_awPacket (hreset : c.reset = false) (h : ¬LoadsWriteAddr s c) :
    (s.step c).regs.awPacket = s.regs.awPacket := by
  refine Machine.step_keeps Regs.awPacket hreset fun hacts => ?_
  rw [Machine.settle, comb_awPacket, if_neg fun hload => h ⟨hacts, hload⟩]

theorem step_wPacket (hreset : c.reset = false) (h : ¬LoadsWriteLine s c) :
    (s.step c).regs.wPacket = s.regs.wPacket := by
  refine Machine.step_keeps Regs.wPacket hreset fun hacts => ?_
  rw [Machine.settle, comb_wPacket, if_neg fun hload => h ⟨hacts, hload⟩]

theorem LoadsRead.ready (h : LoadsRead s c) : c.arReady = true := ((Bool.and_eq_true _ _).mp h.2).2

theorem LoadsWriteAddr.ready (h : LoadsWriteAddr s c) : c.awReady = true :=
  ((Bool.and_eq_true _ _).mp h.2).2

theorem LoadsWriteLine.ready (h : LoadsWriteLine s c) : c.wReady = true :=
  ((Bool.and_eq_true _ _).mp h.2).2

/-! ### The entry that is loaded -/

/-- A read entry holds a READ that its core presented. -/
theorem read_of_traced {o : Origins cfg} (htraced : Traced s.regs.mshrs o) {idx : BitVec 3}
    (hvalid : (mshrAt s.regs.mshrs idx).valid = true)
    (hread : (mshrAt s.regs.mshrs idx).writeReq = false) :
    ∃ i request, o i = some (.miss request) ∧ request.reqType ≠ .write ∧
      request.targetAddr = (mshrAt s.regs.mshrs idx).addr ∧
      request.coreId = (mshrAt s.regs.mshrs idx).coreId := by
  obtain ⟨origin, horigin, hfields⟩ := htraced.mshrAt hvalid
  obtain ⟨i, hi⟩ := Origins.of_at? horigin
  cases origin with
  | miss request =>
      obtain ⟨haddr, hcore, hreq⟩ := hfields
      rw [hread] at hreq
      exact ⟨i, request, hi, by simpa using hreq.symm, haddr.symm, hcore.symm⟩
  | victim addr data =>
      obtain ⟨-, -, hreq⟩ := hfields
      rw [hread] at hreq
      cases hreq

section Step

variable (hsize : cfg.numMshrs = cfg.ways) (hle : cfg.numMshrs ≤ 8) (hm : 1 < cfg.numMshrs)
  (hqueue : ∃ queue, s.regs.Queue queue)
include hsize hle hm hqueue

theorem LoadsRead.head (h : LoadsRead s c) :
    (s.step c).regs.head = mshrAt s.regs.mshrs (nextWaitIdx s.regs c) ∧
      (s.step c).regs.head.valid = true ∧ (s.step c).regs.head.writeReq = false ∧
      (s.step c).regs.arPacket =
        { arAddr := (s.step c).regs.head.addr, arValid := true, arProt := 0 } := by
  obtain ⟨hacts, hload⟩ := h
  have hissues : issuesRead s.regs c = true := ((Bool.and_eq_true _ _).mp hload).1
  unfold issuesRead at hissues
  simp only [Bool.and_eq_true, Bool.not_eq_true'] at hissues
  have hhead := step_head_eq hsize hle hm hqueue hacts hissues.1
  refine ⟨hhead, hhead ▸ hissues.1, hhead ▸ hissues.2, ?_⟩
  rw [hhead, Machine.step_regs_of_acts hacts, Machine.settle, comb_arPacket, if_pos hload]

theorem head_of_issuesWrite (hacts : s.Acts c) (hissues : issuesWrite s.regs c = true) :
    (s.step c).regs.head = mshrAt s.regs.mshrs (nextWaitIdx s.regs c) ∧
      (s.step c).regs.head.valid = true ∧ (s.step c).regs.head.writeReq = true := by
  unfold issuesWrite at hissues
  simp only [Bool.and_eq_true] at hissues
  have hhead := step_head_eq hsize hle hm hqueue hacts hissues.1
  exact ⟨hhead, hhead ▸ hissues.1, hhead ▸ hissues.2⟩

theorem LoadsWriteAddr.head (h : LoadsWriteAddr s c) :
    (s.step c).regs.head.valid = true ∧ (s.step c).regs.head.writeReq = true ∧
      (s.step c).regs.awPacket =
        { awAddr := (s.step c).regs.head.addr, awValid := true, awProt := 0 } := by
  obtain ⟨hacts, hload⟩ := h
  obtain ⟨hhead, hvalid, hwrite⟩ := head_of_issuesWrite hsize hle hm hqueue hacts
    ((Bool.and_eq_true _ _).mp hload).1
  refine ⟨hvalid, hwrite, ?_⟩
  rw [hhead, Machine.step_regs_of_acts hacts, Machine.settle, comb_awPacket, if_pos hload]

theorem LoadsWriteLine.head (h : LoadsWriteLine s c) :
    (s.step c).regs.head.valid = true ∧ (s.step c).regs.head.writeReq = true ∧
      (s.step c).regs.wPacket =
        { wData := (s.step c).regs.head.data, wValid := true, wStrb := BitVec.allOnes 64 } := by
  obtain ⟨hacts, hload⟩ := h
  obtain ⟨hhead, hvalid, hwrite⟩ := head_of_issuesWrite hsize hle hm hqueue hacts
    ((Bool.and_eq_true _ _).mp hload).1
  refine ⟨hvalid, hwrite, ?_⟩
  rw [hhead, Machine.step_regs_of_acts hacts, Machine.settle, comb_wPacket, if_pos hload]

end Step

/-- **Requests to DRAM come from the head of the queue.** -/
theorem requests_from_head (s : Machine .shipped) (hreset : s.AfterReset)
    (input : Nat → Cycle .shipped) (k : Nat)
    (hdram : ∀ j ≤ k, RespondsToHead (s.run input j) (input j)) : RequestsFromHead s input k := by
  have hqueue := run_queue rfl (by decide) hreset fun j hj => hdram j (Nat.le_of_lt hj)
  have htraced := run_traced hreset input k
  constructor
  case read =>
    intro hload
    obtain ⟨hhead, hvalid, hread, haddr⟩ := hload.head rfl (by decide) (by decide) hqueue
    rw [hhead] at hvalid hread
    obtain ⟨i, request, horigin, hkind, htarget, hcore⟩ := read_of_traced htraced hvalid hread
    obtain ⟨hread', j, hlt, hsame⟩ := run_origin_presented input k horigin
    rw [← hhead] at hvalid hread htarget hcore
    refine ⟨hvalid, hread, haddr, j, hlt, ?_, ?_, ?_⟩ <;> rw [hsame]
    · exact hread'.resolve_right hkind
    · exact htarget
    · exact hcore
  case writeAddr => exact LoadsWriteAddr.head rfl (by decide) (by decide) hqueue
  case writeLine => exact LoadsWriteLine.head rfl (by decide) (by decide) hqueue
  case readKept => exact step_arPacket
  case writeAddrKept => exact step_awPacket
  case writeLineKept => exact step_wPacket
  case readAlone =>
    intro hload
    have hrun : (input k).reset = false := hload.1.1
    exact ⟨step_awPacket hrun hload.not_loadsWrite.1, step_wPacket hrun hload.not_loadsWrite.2⟩
  case writeAlone =>
    intro hload
    have hrun : (input k).reset = false := hload.elim (·.1.1) (·.1.1)
    exact step_arPacket hrun fun hread =>
      hload.elim hread.not_loadsWrite.1 hread.not_loadsWrite.2

/-- A READ miss, which DRAM is then ready to take. -/
def readIssued : Nat → Cycle .shipped
  | 0 => { Cycle.idle .shipped with toDrive := .request .read 0x40 1 }
  | _ + 1 => { Cycle.idle .shipped with arReady := true }

theorem readIssued_fromHead : RequestsFromHead (.fresh .shipped) readIssued 1 :=
  requests_from_head _ (Machine.fresh_afterReset _) readIssued 1 (by decide +kernel)

/-! ### Packets that wait -/

/-- A packet that is valid and not accepted in a cycle is the same in the next one. -/
structure PayloadStable (s : Machine cfg) (c : Cycle cfg) : Prop where
  read : c.reset = false → s.regs.arPacket.arValid = true → c.arReady = false →
    (s.step c).regs.arPacket = s.regs.arPacket
  writeAddr : c.reset = false → s.regs.awPacket.awValid = true → c.awReady = false →
    (s.step c).regs.awPacket = s.regs.awPacket
  writeLine : c.reset = false → s.regs.wPacket.wValid = true → c.wReady = false →
    (s.step c).regs.wPacket = s.regs.wPacket

/-- **What DRAM holds back stays on its channel.** -/
theorem payload_stable (s : Machine cfg) (input : Nat → Cycle cfg) (k : Nat) :
    PayloadStable (s.run input k) (input k) where
  read hreset _ hready := step_arPacket hreset fun h => by rw [h.ready] at hready; cases hready
  writeAddr hreset _ hready := step_awPacket hreset fun h => by rw [h.ready] at hready; cases hready
  writeLine hreset _ hready := step_wPacket hreset fun h => by rw [h.ready] at hready; cases hready

end MultiCoreL2Cache
