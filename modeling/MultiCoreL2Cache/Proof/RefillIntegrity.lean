import MultiCoreL2Cache.Model.Dram
import MultiCoreL2Cache.Proof.Blind
import MultiCoreL2Cache.Proof.Slots
import Mathlib.Tactic.MkIffOfInductiveProp

/-!
# Which read a DRAM response answers

Responses carry no id: the cache takes the response that arrives for the answer to the MSHR at
`wait_idx`. That is right as long as the DRAM holds at most one request and it is the one of that
MSHR. Nothing withdraws `ar_valid` once it is set, so a DRAM that is ready in a second cycle accepts
the same read again, and the second response retires whatever MSHR has come to the head.
-/

namespace MultiCoreL2Cache

open Packed

variable {cfg : Config} {r : Regs cfg} {c : Cycle cfg} {n : Nets cfg} {s : Machine cfg} {g : Dram}
  {memory : Addr → CacheLine}

/-- Only a response moves a valid head. -/
theorem comb_head (hread : c.rPacket.rValid = false) (hwrite : c.bPacket.bValid = false)
    (hvalid : r.head.valid = true) : (comb r c n).next.head = r.head := by
  have hwait : nextWaitIdx r c = r.waitIdx := by simp [nextWaitIdx, hread, hwrite]
  have hdram : dramMshrs r c = r.mshrs := by
    simp [dramMshrs, retiredMshrs, victimAllocates, victimActive, hread, hwrite]
  unfold Regs.head
  rw [comb_waitIdx, comb_mshrs, hwait, hdram]
  by_cases halloc : missAllocates r c n.mshrExists = true
  · have hfree : (mshrAt r.mshrs r.freeIdx).valid = false := by
      unfold missAllocates at halloc
      simp only [Bool.and_eq_true, Bool.not_eq_true'] at halloc
      exact halloc.2
    have hne : r.waitIdx.toNat ≠ r.freeIdx.toNat := by
      intro heq
      rw [Regs.head, BitVec.eq_of_toNat_eq heq, hfree] at hvalid
      cases hvalid
    rw [if_pos halloc, mshrAt_assign_of_ne _ _ hne]
  · rw [if_neg halloc]

/-- A cycle in which a response retires the head, or a reset clears it. -/
def LeavesHead (s : Machine cfg) (c : Cycle cfg) : Prop :=
  c.reset = true ∨ (s.Acts c ∧ (c.rPacket.rValid = true ∨ c.bPacket.bValid = true))

theorem step_head (hstays : ¬LeavesHead s c) (hvalid : s.regs.head.valid = true) :
    (s.step c).regs.head = s.regs.head := by
  simp only [LeavesHead, not_or] at hstays
  have hreset : c.reset = false := by simpa using hstays.1
  refine Machine.step_keeps Regs.head hreset fun hacts => ?_
  have hquiet : c.rPacket.rValid = false ∧ c.bPacket.bValid = false := by
    simpa [hacts] using hstays.2
  exact comb_head hquiet.1 hquiet.2 hvalid

instance (s : Machine cfg) (c : Cycle cfg) : Decidable (LeavesHead s c) := instDecidableOr

/-! ### The condition -/

/-- What the DRAM accepts in a cycle it accepts for the MSHR at `wait_idx`, for the first time. An
MSHR leaves with nothing accepted behind it. -/
@[mk_iff]
structure AcceptsOnce (s : Machine cfg) (g : Dram) (c : Cycle cfg) : Prop where
  read : acceptsRead s c = true →
    (g.answered c).reads = [] ∧ s.regs.head.valid = true ∧ s.regs.head.writeReq = false ∧
      s.regs.head.addr = s.regs.arPacket.arAddr
  writeAddr : acceptsWriteAddr s c = true →
    (g.answered c).writeAddrs = 0 ∧ s.regs.head.valid = true ∧ s.regs.head.writeReq = true
  writeLine : acceptsWriteLine s c = true →
    (g.answered c).writeLines = 0 ∧ s.regs.head.valid = true ∧ s.regs.head.writeReq = true
  leaves : LeavesHead s c →
    acceptsRead s c = false ∧ acceptsWriteAddr s c = false ∧ acceptsWriteLine s c = false
  reset : c.reset = true → g.answered c = .idle

instance (s : Machine cfg) (g : Dram) (c : Cycle cfg) : Decidable (AcceptsOnce s g c) :=
  decidable_of_iff' _ (acceptsOnce_iff s g c)

/-- One half of a write is outstanding at most once, and for the MSHR at `wait_idx`. -/
def WriteDue (r : Regs cfg) (count : Nat) : Prop :=
  count = 0 ∨ (count = 1 ∧ r.head.valid = true ∧ r.head.writeReq = true)

/-- The DRAM holds at most one request, and it is the one of the MSHR at `wait_idx`. -/
structure InStep (r : Regs cfg) (g : Dram) : Prop where
  reads : g.reads = [] ∨
    (g.reads = [r.head.addr] ∧ r.head.valid = true ∧ r.head.writeReq = false)
  writeAddrs : WriteDue r g.writeAddrs
  writeLines : WriteDue r g.writeLines

theorem inStep_idle (r : Regs cfg) : InStep r .idle := ⟨.inl rfl, .inl rfl, .inl rfl⟩

theorem WriteDue.eq_zero {count : Nat} (h : WriteDue r count) (hreq : r.head.writeReq = false) :
    count = 0 := by
  rcases h with hzero | ⟨-, -, hwrite⟩
  · exact hzero
  · rw [hreq] at hwrite
    cases hwrite

theorem WriteDue.eq_one {count : Nat} (h : WriteDue r count) (hpos : 0 < count) :
    count = 1 ∧ r.head.writeReq = true := by
  rcases h with hzero | ⟨hone, -, hreq⟩
  · omega
  · exact ⟨hone, hreq⟩

/-- A further acceptance, where there is one, is the first for the head. -/
theorem WriteDue.accept {r' : Regs cfg} {count : Nat} {accepts : Bool} (h : WriteDue r count)
    (hhead : r.head.valid = true → r'.head = r.head)
    (hfirst : accepts = true → count = 0 ∧ r.head.valid = true ∧ r.head.writeReq = true) :
    WriteDue r' (count + accepts.toNat) := by
  cases accepts with
  | false =>
      rcases h with hzero | ⟨hone, hvalid, hreq⟩
      · exact .inl hzero
      · unfold WriteDue
        rw [hhead hvalid]
        exact .inr ⟨hone, hvalid, hreq⟩
  | true =>
      obtain ⟨hzero, hvalid, hreq⟩ := hfirst rfl
      unfold WriteDue
      rw [hhead hvalid, hzero]
      exact .inr ⟨rfl, hvalid, hreq⟩

theorem InStep.read_due (h : InStep s.regs g) (hdram : g.Answers memory c)
    (hread : c.rPacket.rValid = true) :
    g.reads = [s.regs.head.addr] ∧ s.regs.head.valid = true ∧ s.regs.head.writeReq = false := by
  have hdata := hdram.1 hread
  rcases h.reads with hnil | hone
  · rw [hnil] at hdata
    cases hdata
  · exact hone

theorem InStep.answered_eq_idle (h : InStep s.regs g) (hdram : g.Answers memory c)
    (hresp : c.rPacket.rValid = true ∨ c.bPacket.bValid = true) : g.answered c = .idle := by
  rcases hresp with hread | hwrite
  · obtain ⟨hreads, -, hreq⟩ := h.read_due hdram hread
    have haddrs := h.writeAddrs.eq_zero hreq
    have hlines := h.writeLines.eq_zero hreq
    simp [Dram.answered, Dram.idle, hread, hreads, haddrs, hlines]
  · obtain ⟨hposAddrs, hposLines⟩ := hdram.2 hwrite
    obtain ⟨haddrs, hreq⟩ := h.writeAddrs.eq_one hposAddrs
    obtain ⟨hlines, -⟩ := h.writeLines.eq_one hposLines
    have hreads : g.reads = [] := by
      rcases h.reads with hnil | ⟨-, -, hread⟩
      · exact hnil
      · rw [hreq] at hread
        cases hread
    simp [Dram.answered, Dram.idle, hwrite, hreads, haddrs, hlines]

theorem InStep.answered (h : InStep s.regs g) (hdram : g.Answers memory c) :
    InStep s.regs (g.answered c) := by
  by_cases hresp : c.rPacket.rValid = true ∨ c.bPacket.bValid = true
  · rw [h.answered_eq_idle hdram hresp]
    exact inStep_idle _
  · simp only [not_or] at hresp
    simpa [Dram.answered, hresp.1, hresp.2] using h

theorem inStep_step (h : InStep s.regs g) (hdram : g.Answers memory c)
    (honce : AcceptsOnce s g c) : InStep (s.step c).regs (g.step s c) := by
  have hanswered := h.answered hdram
  by_cases hleaves : LeavesHead s c
  · obtain ⟨hread, haddr, hline⟩ := honce.leaves hleaves
    have hidle : g.answered c = .idle := by
      rcases hleaves with hreset | ⟨-, hresp⟩
      · exact honce.reset hreset
      · exact h.answered_eq_idle hdram hresp
    have hstep : g.step s c = .idle := by
      simp [Dram.step, hidle, hread, haddr, hline, Dram.idle]
    rw [hstep]
    exact inStep_idle _
  · -- the head stays, so what is outstanding for it stays due
    have hhead : s.regs.head.valid = true → (s.step c).regs.head = s.regs.head :=
      step_head hleaves
    refine ⟨?_, hanswered.writeAddrs.accept hhead honce.writeAddr,
      hanswered.writeLines.accept hhead honce.writeLine⟩
    unfold Dram.step
    by_cases hread : acceptsRead s c = true
    · obtain ⟨hnil, hvalid, hreq, haddr⟩ := honce.read hread
      rw [hhead hvalid]
      exact .inr ⟨by simp [hnil, hread, haddr], hvalid, hreq⟩
    · rcases hanswered.reads with hnil | ⟨hone, hvalid, hreq⟩
      · exact .inl (by simp [hnil, hread])
      · rw [hhead hvalid]
        exact .inr ⟨by simp [hone, hread], hvalid, hreq⟩

theorem run_inStep (input : Nat → Cycle cfg) {k : Nat}
    (hdram : ∀ j < k, (Dram.run s input j).Answers memory (input j))
    (honce : ∀ j < k, AcceptsOnce (s.run input j) (Dram.run s input j) (input j)) :
    InStep (s.run input k).regs (Dram.run s input k) :=
  Clocked.history_invariant Dram.step .idle (fun s g => InStep s.regs g)
    (fun s g c => g.Answers memory c ∧ AcceptsOnce s g c) (inStep_idle _)
    (fun _ _ _ h hlegal => inStep_step h hlegal.1 hlegal.2) fun j hj => ⟨hdram j hj, honce j hj⟩

/-! ### Refills -/

/-- A response that retires an MSHR retires a read, with the line of its address. -/
def RefillIntact (memory : Addr → CacheLine) (s : Machine cfg) (c : Cycle cfg) : Prop :=
  c.rPacket.rValid = true → s.Acts c →
    s.regs.head.valid = true ∧ s.regs.head.writeReq = false ∧
      c.rPacket.rData = memory s.regs.head.addr

/-- **Refill integrity, as long as no request is accepted twice.** -/
theorem refill_intact_of_acceptsOnce (memory : Addr → CacheLine) (s : Machine cfg)
    (input : Nat → Cycle cfg) (k : Nat)
    (hdram : ∀ j ≤ k, (Dram.run s input j).Answers memory (input j))
    (honce : ∀ j < k, AcceptsOnce (s.run input j) (Dram.run s input j) (input j)) :
    RefillIntact memory (s.run input k) (input k) := by
  intro hread _
  have hin := run_inStep input (fun j hj => hdram j hj.le) honce
  obtain ⟨hreads, hvalid, hreq⟩ := hin.read_due (hdram k le_rfl) hread
  have hdata := (hdram k le_rfl).1 hread
  rw [hreads] at hdata
  exact ⟨hvalid, hreq, (Option.some.inj hdata).symm⟩

def lineAt40 (addr : Addr) : CacheLine := if addr = 0x40 then 7#512 else 9#512

def oneRead : Nat → Drive .shipped
  | 0 => .request .read 0x40 1
  | 1 => { Drive.idle .shipped with arReady := true }
  | 2 => { Drive.idle .shipped with arReady := true }
  | 3 => .response _ 7#512
  | _ + 4 => .idle _

theorem oneRead_intact :
    RefillIntact lineAt40
      ((System.fresh .shipped).toMachine.run ((System.fresh .shipped).cycles oneRead) 3)
      ((System.fresh .shipped).cycles oneRead 3) :=
  refill_intact_of_acceptsOnce _ _ _ 3 (by decide +kernel) (by decide +kernel)

/-- Two READs by two cores. The DRAM is still ready when it answers the first. -/
def twoReads : Nat → Drive .shipped
  | 0 => .request .read 0x40 0
  | 1 => { Drive.request .read 0x80 1 with arReady := true }
  | 2 => { Drive.idle .shipped with arReady := true }
  | 3 => { Drive.response .shipped 7#512 with arReady := true }
  | 4 => .response _ 7#512
  | _ + 5 => .idle _

theorem refill_not_intact :
    ¬∀ (memory : Addr → CacheLine) (s : System .shipped) (input : Nat → Drive .shipped) (k : Nat),
      s.AfterReset →
      (∀ j ≤ k, (Dram.run s.toMachine (s.cycles input) j).Answers memory (s.cycles input j)) →
      RefillIntact memory (s.toMachine.run (s.cycles input) k) (s.cycles input k) := by
  intro hclaim
  have hintact := hclaim lineAt40 (.fresh _) twoReads 4 ⟨rfl, rfl⟩ (by decide +kernel)
  rw [← System.run_toMachine] at hintact
  obtain ⟨-, -, hdata⟩ := hintact (by decide +kernel) (by decide +kernel)
  have hhead : ((System.fresh .shipped).run twoReads 4).regs.head.addr = 0x80 := by decide +kernel
  have hline : ((System.fresh .shipped).cycles twoReads 4).rPacket.rData = 7#512 := rfl
  have hne : (7#512 : CacheLine) ≠ lineAt40 0x80 := by decide +kernel
  rw [hhead, hline] at hdata
  exact hne hdata

end MultiCoreL2Cache
