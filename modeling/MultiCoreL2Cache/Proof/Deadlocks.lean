import MultiCoreL2Cache.Proof.Slots

/-!
# Parties that wait for each other

The cache loads a snoop in `snoop_req` once it is answered, and raises a valid bit towards DRAM once
DRAM is ready. An L1 cache that answers the snoops it is shown, or a DRAM that gets ready for the
requests it is shown, as a slave of the bus may do, therefore never sees any.
-/

namespace MultiCoreL2Cache

variable {cfg : Config} {s : Machine cfg} {c : Cycle cfg} {input : Nat → Cycle cfg}

/-! ### Snoops -/

def ShowsSnoop (s : Machine cfg) : Prop := ∃ core, (s.regs.snoopReq core).valid = true

def AnswersSnoop (c : Cycle cfg) : Prop := ∃ core, (c.snoopResp core).valid = true

/-- The L1 caches answer no snoop but one they have been shown. -/
def AnswersShown (s : Machine cfg) (input : Nat → Cycle cfg) : Prop :=
  ∀ k core, ((input k).snoopResp core).valid = true →
    ∃ j ≤ k, ((s.run input j).regs.snoopReq core).valid = true

def Snoops (s : Machine cfg) (c : Cycle cfg) : Prop :=
  hitActive s.regs c = true ∨ victimActive s.regs c = true

section Unanswered

variable (hnone : ¬AnswersSnoop c)
include hnone

theorem snoopAnswers_of_none (target : Option cfg.Core) (addr : Addr) :
    snoopAnswers c target addr = false := by
  cases target with
  | none => rfl
  | some core =>
      have hinvalid : (c.snoopResp core).valid = false := by
        by_contra hvalid
        exact hnone ⟨core, by simpa using hvalid⟩
      simp [snoopAnswers, hinvalid]

theorem allBack_of_none : allBack c = false := by
  have hzero : respValid c 0 = false := by
    unfold respValid
    cases hresp : Packed.select? c.snoopResp 0 with
    | none => rfl
    | some resp =>
        rw [Packed.select?_of_lt _ cfg.numCores_pos] at hresp
        by_contra hvalid
        refine hnone ⟨⟨0, cfg.numCores_pos⟩, ?_⟩
        rw [Option.some.inj hresp]
        simpa using hvalid
  simp [allBack, hzero]

/-- A cycle that snoops without an answer waits, and a cache that waits goes on waiting. -/
theorem settle_waiting_iff :
    (s.settle c).waiting = true ↔ Snoops s c ∨ s.nets.waiting = true := by
  have hhit : hitAnswered c = false := snoopAnswers_of_none hnone _ _
  have hvictim : victimAnswered s.regs c = false := by
    unfold victimAnswered
    split
    · exact snoopAnswers_of_none hnone _ _
    · exact allBack_of_none hnone
  unfold Snoops
  rw [Machine.settle, comb_waiting, hhit, hvictim]
  cases hitActive s.regs c <;> cases victimActive s.regs c <;> simp

theorem shows_of_step (hshows : ShowsSnoop (s.step c)) : ShowsSnoop s := by
  obtain ⟨core, hvalid⟩ := hshows
  by_cases hreset : c.reset = true
  · rw [Machine.step_regs_of_reset hreset] at hvalid
    cases hvalid
  · by_cases hacts : s.Acts c
    · have hquiet : ¬(Snoops s c ∨ s.nets.waiting = true) := by
        rw [← settle_waiting_iff hnone, hacts.2]
        exact Bool.false_ne_true
      have hhit : hitTargets s.regs c core = false := by
        have hactive : hitActive s.regs c = false := by
          by_contra hactive
          exact hquiet (.inl (.inl (by simpa using hactive)))
        rw [hitTargets, hactive, Bool.false_and]
      have hvictim : victimTargets s.regs c core = false := by
        have hactive : victimActive s.regs c = false := by
          by_contra hactive
          exact hquiet (.inl (.inr (by simpa using hactive)))
        rw [victimTargets, hactive, Bool.false_and]
      rw [Machine.step_regs_of_acts hacts, Machine.settle, comb_snoopReq, hhit, hvictim] at hvalid
      exact ⟨core, hvalid⟩
    · rw [Machine.step_regs_of_frozen (by simpa using hreset) hacts] at hvalid
      exact ⟨core, hvalid⟩

end Unanswered

/-- What a snoop does to a cache whose L1 caches answer what they are shown: no snoop is shown or
answered, the first cycle that snoops leaves the cache waiting, and from then on its registers keep
their values or are reset. -/
structure SnoopDeadlock (s : Machine cfg) (input : Nat → Cycle cfg) (k : Nat) : Prop where
  shows : ¬ShowsSnoop (s.run input k)
  answers : ¬AnswersSnoop (input k)
  waits : Snoops (s.run input k) (input k) → (s.run input (k + 1)).nets.waiting = true
  frozen : ∀ b ≤ k, (s.run input b).nets.waiting = true →
    (s.run input k).nets.waiting = true ∧
      ((s.run input k).regs = (s.run input b).regs ∨ (s.run input k).regs = .reset cfg)

/-- **L1 caches that answer snoops never see one, and the first snoop stops the cache for good.** Not
even a reset ends the wait. -/
theorem snoop_deadlock (s : Machine cfg) (hreset : s.AfterReset) (input : Nat → Cycle cfg)
    (hanswers : AnswersShown s input) (k : Nat) : SnoopDeadlock s input k := by
  have hnever : ∀ k, ¬ShowsSnoop (s.run input k) ∧ ¬AnswersSnoop (input k) := by
    refine Clocked.never_of_circular ?_ (fun k hshows => ?_) ?_
    · rintro ⟨core, hvalid⟩
      have hregs : (s.run input 0).regs = .reset cfg := hreset
      rw [hregs] at hvalid
      cases hvalid
    · by_cases hanswered : AnswersSnoop (input k)
      · exact .inr hanswered
      · exact .inl (shows_of_step hanswered hshows)
    · rintro k ⟨core, hvalid⟩
      obtain ⟨j, hj, hshown⟩ := hanswers k core hvalid
      exact ⟨j, hj, core, hshown⟩
  have hwaits : ∀ j, Snoops (s.run input j) (input j) ∨ (s.run input j).nets.waiting = true →
      (s.run input (j + 1)).nets.waiting = true := fun j =>
    (settle_waiting_iff (hnever j).2).mpr
  refine ⟨(hnever k).1, (hnever k).2, fun hsnoops => hwaits k (.inl hsnoops), ?_⟩
  intro b hle hwaiting
  refine Clocked.persists (P := fun k => (s.run input k).nets.waiting = true ∧
    ((s.run input k).regs = (s.run input b).regs ∨ (s.run input k).regs = .reset cfg))
    hle ⟨hwaiting, .inl rfl⟩ ?_
  rintro j - - ⟨hwait, hregs⟩
  have hnext := hwaits j (.inr hwait)
  refine ⟨hnext, ?_⟩
  by_cases hrst : (input j).reset = true
  · exact .inr (Machine.step_regs_of_reset hrst)
  · have hfrozen : ¬(s.run input j).Acts (input j) := by
      intro hacts
      have hsettled : ((s.run input j).settle (input j)).waiting = true := hnext
      rw [hacts.2] at hsettled
      cases hsettled
    have hsame : (s.run input (j + 1)).regs = (s.run input j).regs :=
      Machine.step_regs_of_frozen (by simpa using hrst) hfrozen
    rw [hsame]
    exact hregs

/-- Core 2 reads a line that core 1 has in MODIFIED, in every cycle. -/
def readsModified : Nat → Cycle .shipped := fun _ =>
  { Cycle.idle .shipped with
    toDrive := .request .read 0x40 2
    readMeta := fun w => if w = 0 then ⟨true, false, 0b0010, .modified, 0x40⟩ else .zero _ }

theorem readsModified_deadlock : SnoopDeadlock (.fresh .shipped) readsModified 9 :=
  snoop_deadlock _ (Machine.fresh_afterReset _) readsModified (fun _ _ h => nomatch h) 9

/-! ### Requests to DRAM -/

/-- A DRAM that raises a ready bit only once it has seen the valid bit of the channel, and answers
only what it has accepted. -/
structure WaitsForValid (s : Machine cfg) (input : Nat → Cycle cfg) : Prop where
  arReady : ∀ k, (input k).arReady = true →
    ∃ j ≤ k, (s.run input j).regs.arPacket.arValid = true
  awReady : ∀ k, (input k).awReady = true →
    ∃ j ≤ k, (s.run input j).regs.awPacket.awValid = true
  wReady : ∀ k, (input k).wReady = true → ∃ j ≤ k, (s.run input j).regs.wPacket.wValid = true
  rValid : ∀ k, (input k).rPacket.rValid = true →
    ∃ j ≤ k, (s.run input j).regs.arPacket.arValid = true ∧ (input j).arReady = true
  bValid : ∀ k, (input k).bPacket.bValid = true →
    ∃ j ≤ k, (s.run input j).regs.awPacket.awValid = true ∧ (input j).awReady = true

/-- No channel carries a request, no response comes, and an MSHR that is in use stays so until a
reset. -/
structure DramDeadlock (s : Machine cfg) (input : Nat → Cycle cfg) (k : Nat) : Prop where
  ar : (s.run input k).regs.arPacket.arValid = false
  aw : (s.run input k).regs.awPacket.awValid = false
  w : (s.run input k).regs.wPacket.wValid = false
  responses : (input k).rPacket.rValid = false ∧ (input k).bPacket.bValid = false
  outstanding : ∀ b ≤ k, (∀ j, b ≤ j → j < k → (input j).reset = false) →
    ∀ i, ((s.run input b).regs.mshrs i).valid = true →
      (s.run input k).regs.mshrs i = (s.run input b).regs.mshrs i

/-- A channel is loaded only when it is ready. -/
theorem valid_or_ready {α : Type} (valid : α → Bool) {old new : α} {issues ready : Bool}
    (h : valid (if (issues && ready) = true then new else old) = true) :
    valid old = true ∨ ready = true := by
  by_cases hloads : (issues && ready) = true
  · exact .inr ((Bool.and_eq_true _ _).mp hloads).2
  · rw [if_neg hloads] at h
    exact .inl h

/-- A channel becomes valid only in a cycle in which it is ready. -/
theorem never_valid (valid : Regs cfg → Bool) (ready : Cycle cfg → Bool) (hreset : s.AfterReset)
    (hzero : valid (.reset cfg) = false)
    (hload : ∀ r c n, valid (comb r c n).next = true → valid r = true ∨ ready c = true)
    (hready : ∀ k, ready (input k) = true → ∃ j ≤ k, valid (s.run input j).regs = true) (k : Nat) :
    valid (s.run input k).regs = false ∧ ready (input k) = false := by
  have hnever := Clocked.never_of_circular (P := fun k => valid (s.run input k).regs = true)
    (Q := fun k => ready (input k) = true) ?_ (fun k hvalid => ?_) hready k
  · simpa using hnever
  · have hregs : (s.run input 0).regs = .reset cfg := hreset
    rw [hregs, hzero]
    exact Bool.false_ne_true
  · have hstep : (s.run input (k + 1)).regs = ((s.run input k).step (input k)).regs := rfl
    rw [hstep] at hvalid
    by_cases hrst : (input k).reset = true
    · rw [Machine.step_regs_of_reset hrst, hzero] at hvalid
      cases hvalid
    · by_cases hacts : (s.run input k).Acts (input k)
      · rw [Machine.step_regs_of_acts hacts] at hvalid
        exact hload _ _ _ hvalid
      · rw [Machine.step_regs_of_frozen (by simpa using hrst) hacts] at hvalid
        exact .inl hvalid

/-- Without a response no MSHR that is in use changes. -/
theorem step_mshrs_of_valid {i : Fin cfg.numMshrs} (hreset : c.reset = false)
    (hread : c.rPacket.rValid = false) (hwrite : c.bPacket.bValid = false)
    (hvalid : (s.regs.mshrs i).valid = true) : (s.step c).regs.mshrs i = s.regs.mshrs i := by
  refine Machine.step_keeps (fun r => r.mshrs i) hreset fun _ => ?_
  have hvictim : victimAllocates s.regs c = false := by simp [victimAllocates, victimActive, hread]
  rw [Machine.settle, comb_mshrs_of_ne, retiredMshrs_of_ne]
  · intro hresp
    simp [hread, hwrite] at hresp
  · intro halloc hi
    rw [hvictim, Bool.or_false] at halloc
    have hlt : s.regs.freeIdx.toNat < cfg.numMshrs := hi ▸ i.isLt
    have hslot : mshrAt s.regs.mshrs s.regs.freeIdx = s.regs.mshrs i := by
      rw [mshrAt_of_lt _ hlt]
      exact congrArg _ (Fin.ext hi.symm)
    have hfree := (missAllocates_eq_true.mp halloc).2.2
    rw [hslot, hvalid] at hfree
    cases hfree

/-- **A DRAM that waits for valid is never asked for anything**, and no miss is ever answered. -/
theorem dram_deadlock (s : Machine cfg) (hreset : s.AfterReset) (input : Nat → Cycle cfg)
    (hdram : WaitsForValid s input) (k : Nat) : DramDeadlock s input k := by
  have har : ∀ k, (s.run input k).regs.arPacket.arValid = false ∧ (input k).arReady = false := by
    refine never_valid (fun r => r.arPacket.arValid) (fun c => c.arReady) hreset rfl ?_ hdram.arReady
    intro r c n hvalid
    rw [comb_arPacket] at hvalid
    exact valid_or_ready AddressReadPacket.arValid hvalid
  have haw : ∀ k, (s.run input k).regs.awPacket.awValid = false ∧ (input k).awReady = false := by
    refine never_valid (fun r => r.awPacket.awValid) (fun c => c.awReady) hreset rfl ?_ hdram.awReady
    intro r c n hvalid
    rw [comb_awPacket] at hvalid
    exact valid_or_ready AddressWritePacket.awValid hvalid
  have hw : ∀ k, (s.run input k).regs.wPacket.wValid = false ∧ (input k).wReady = false := by
    refine never_valid (fun r => r.wPacket.wValid) (fun c => c.wReady) hreset rfl ?_ hdram.wReady
    intro r c n hvalid
    rw [comb_wPacket] at hvalid
    exact valid_or_ready WriteDataPacket.wValid hvalid
  have hquiet : ∀ k, (input k).rPacket.rValid = false ∧ (input k).bPacket.bValid = false := by
    intro k
    constructor
    · by_contra hread
      obtain ⟨j, -, hvalid, -⟩ := hdram.rValid k (by simpa using hread)
      rw [(har j).1] at hvalid
      cases hvalid
    · by_contra hwrite
      obtain ⟨j, -, hvalid, -⟩ := hdram.bValid k (by simpa using hwrite)
      rw [(haw j).1] at hvalid
      cases hvalid
  refine ⟨(har k).1, (haw k).1, (hw k).1, hquiet k, fun b hle hrun i hvalid => ?_⟩
  refine Clocked.persists
    (P := fun k => (s.run input k).regs.mshrs i = (s.run input b).regs.mshrs i) hle rfl ?_
  intro j hbj hjk hsame
  have hvalid' : ((s.run input j).regs.mshrs i).valid = true := by
    rw [hsame]
    exact hvalid
  exact (step_mshrs_of_valid (hrun j hbj hjk) (hquiet j).1 (hquiet j).2 hvalid').trans hsame

/-- Core 1 reads a line, and DRAM waits for its request. -/
def readUnheard : Nat → Cycle .shipped
  | 0 => { Cycle.idle .shipped with toDrive := .request .read 0x40 1 }
  | _ + 1 => .idle _

theorem readUnheard_quiet (k : Nat) : (readUnheard k).arReady = false ∧
    (readUnheard k).awReady = false ∧ (readUnheard k).wReady = false ∧
    (readUnheard k).rPacket.rValid = false ∧ (readUnheard k).bPacket.bValid = false := by
  cases k with
  | zero => exact ⟨rfl, rfl, rfl, rfl, rfl⟩
  | succ k => exact ⟨rfl, rfl, rfl, rfl, rfl⟩

theorem readUnheard_deadlock : DramDeadlock (.fresh .shipped) readUnheard 9 := by
  refine dram_deadlock _ (Machine.fresh_afterReset _) readUnheard ⟨?_, ?_, ?_, ?_, ?_⟩ 9 <;>
    intro k h <;> simp [readUnheard_quiet k] at h

end MultiCoreL2Cache
