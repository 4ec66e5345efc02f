import MultiCoreL2Cache.Proof.Origins
import MultiCoreL2Cache.Proof.Stalls

/-!
# Misses to one address

A miss looks for its address in the MSHRs, so that two misses of one line do not both go to DRAM. The
search reads all slots, retired ones and ones never used included, and its result stays in
`mshr_exists` for good. That finds too many, never too few: a miss may be refused for no request, and
no two MSHRs that misses hold have the same address.
-/

namespace MultiCoreL2Cache

open Packed

variable {cfg : Config} {r : Regs cfg} {c : Cycle cfg} {n : Nets cfg} {s : Machine cfg}
  {o : Origins cfg}

/-! ### Which misses are refused -/

/-- A valid MSHR holds the address of the request. -/
def RequestOutstanding (r : Regs cfg) (c : Cycle cfg) : Prop :=
  ∃ i, (r.mshrs i).valid = true ∧ (r.mshrs i).addr = c.l2EntryPacket.targetAddr

instance (r : Regs cfg) (c : Cycle cfg) : Decidable (RequestOutstanding r c) :=
  inferInstanceAs (Decidable (∃ _, _))

def FreeSlotTaken (r : Regs cfg) : Prop := (mshrAt r.mshrs r.freeIdx).valid = true

instance (r : Regs cfg) : Decidable (FreeSlotTaken r) := inferInstanceAs (Decidable (_ = true))

/-- A READ or WRITE of an unstalled core misses in an unfrozen cycle. -/
structure MissStep (s : Machine cfg) (c : Cycle cfg) : Prop where
  acts : s.Acts c
  misses : misses s.regs c = true

/-- The miss is refused exactly for a request outstanding or a full ring, and otherwise gets the slot
at `free_idx`. -/
structure MergesExactly (s : Machine cfg) (c : Cycle cfg) : Prop where
  stalls : ((s.step c).regs.l2ExitPacket c.l2EntryPacket.coreId).stall = true ↔
    RequestOutstanding s.regs c ∨ FreeSlotTaken s.regs
  allocates : ¬(RequestOutstanding s.regs c ∨ FreeSlotTaken s.regs) →
    (mshrAt (s.step c).regs.mshrs s.regs.freeIdx).valid = true ∧
    (mshrAt (s.step c).regs.mshrs s.regs.freeIdx).addr = c.l2EntryPacket.targetAddr ∧
    (mshrAt (s.step c).regs.mshrs s.regs.freeIdx).coreId = c.l2EntryPacket.coreId ∧
    ∀ core, ((s.step c).regs.l2ExitPacket core).stall = (s.regs.l2ExitPacket core).stall

theorem mshrMatch_of_outstanding (h : RequestOutstanding r c) : mshrMatch r c = true := by
  obtain ⟨i, -, haddr⟩ := h
  exact decide_eq_true ⟨i, haddr⟩

theorem missAllocates_iff {exists' : Bool} (hmiss : misses r c = true) :
    missAllocates r c exists' = true ↔
      ¬((exists' = true ∨ mshrMatch r c = true) ∨ FreeSlotTaken r) := by
  have hrefuses : refuses r c exists' = true ↔
      (exists' = true ∨ mshrMatch r c = true) ∨ FreeSlotTaken r := refuses_iff hmiss
  rw [← hrefuses, refuses_eq_true]
  simp [hmiss]

theorem step_stall (hacts : s.Acts c) (core : cfg.Core) :
    ((s.step c).regs.l2ExitPacket core).stall =
      ((s.regs.l2ExitPacket core).stall ||
        (decide (core = c.l2EntryPacket.coreId) && refuses s.regs c s.nets.mshrExists)) := by
  rw [Machine.step_regs_of_acts hacts, Machine.settle, comb_stall]

theorem MissStep.stall_iff (h : MissStep s c) :
    ((s.step c).regs.l2ExitPacket c.l2EntryPacket.coreId).stall = true ↔
      (s.nets.mshrExists = true ∨ mshrMatch s.regs c = true) ∨ FreeSlotTaken s.regs := by
  rw [step_stall h.acts, stalled_of_misses h.misses, decide_eq_true rfl, Bool.false_or,
    Bool.true_and]
  exact refuses_iff h.misses

theorem MissStep.mshrAt_freeIdx (h : MissStep s c) (hfree : s.regs.freeIdx.toNat < cfg.numMshrs)
    (halloc : missAllocates s.regs c s.nets.mshrExists = true) :
    ∃ old, mshrAt (s.step c).regs.mshrs s.regs.freeIdx = missEntry c old := by
  rw [Machine.step_regs_of_acts h.acts, Machine.settle, mshrAt_of_lt _ hfree, comb_mshrs,
    if_pos halloc, assign_apply, if_pos rfl]
  exact ⟨_, rfl⟩

theorem MissStep.mergesExactly_iff (h : MissStep s c)
    (hfree : s.regs.freeIdx.toNat < cfg.numMshrs) :
    MergesExactly s c ↔
      (s.nets.mshrExists = true ∨ mshrMatch s.regs c = true →
        RequestOutstanding s.regs c ∨ FreeSlotTaken s.regs) := by
  have hstall := h.stall_iff
  constructor
  · intro hmerges hfound
    exact hmerges.stalls.mp (hstall.mpr (.inl hfound))
  · intro hcause
    refine ⟨hstall.trans ⟨?_, ?_⟩, fun hnone => ?_⟩
    · rintro (hfound | hfull)
      · exact hcause hfound
      · exact .inr hfull
    · rintro (hout | hfull)
      · exact .inl (.inr (mshrMatch_of_outstanding hout))
      · exact .inr hfull
    · have hquiet : ¬((s.nets.mshrExists = true ∨ mshrMatch s.regs c = true) ∨
          FreeSlotTaken s.regs) := by
        rintro (hfound | hfull)
        · exact hnone (hcause hfound)
        · exact hnone (.inr hfull)
      have hrefuses : refuses s.regs c s.nets.mshrExists = false := by
        simpa using mt (refuses_iff h.misses).mp hquiet
      obtain ⟨old, hentry⟩ := h.mshrAt_freeIdx hfree ((missAllocates_iff h.misses).mpr hquiet)
      rw [hentry]
      refine ⟨rfl, rfl, rfl, fun core => ?_⟩
      rw [step_stall h.acts, hrefuses, Bool.and_false, Bool.or_false]

/-- **Misses are merged exactly where what the search finds is outstanding.** -/
theorem merging_exact_iff (s : Machine cfg) (hreset : s.AfterReset) (input : Nat → Cycle cfg)
    (k : Nat) (h : MissStep (s.run input k) (input k)) :
    MergesExactly (s.run input k) (input k) ↔
      ((s.run input k).nets.mshrExists = true ∨ mshrMatch (s.run input k).regs (input k) = true →
        RequestOutstanding (s.run input k).regs (input k) ∨
          FreeSlotTaken (s.run input k).regs) :=
  h.mergesExactly_iff (run_freeIdx_lt hreset input k)

theorem readRetired_missStep :
    MissStep ((System.fresh .shipped).toMachine.run ((System.fresh .shipped).cycles readRetired) 2)
      ((System.fresh .shipped).cycles readRetired 2) where
  acts := by decide +kernel
  misses := by decide +kernel

theorem readRetired_merging_iff :
    MergesExactly
        ((System.fresh .shipped).toMachine.run ((System.fresh .shipped).cycles readRetired) 2)
        ((System.fresh .shipped).cycles readRetired 2) ↔
      (((System.fresh .shipped).toMachine.run
          ((System.fresh .shipped).cycles readRetired) 2).nets.mshrExists = true ∨
        mshrMatch ((System.fresh .shipped).toMachine.run
          ((System.fresh .shipped).cycles readRetired) 2).regs
          ((System.fresh .shipped).cycles readRetired 2) = true →
        RequestOutstanding ((System.fresh .shipped).toMachine.run
          ((System.fresh .shipped).cycles readRetired) 2).regs
          ((System.fresh .shipped).cycles readRetired 2) ∨
        FreeSlotTaken ((System.fresh .shipped).toMachine.run
          ((System.fresh .shipped).cycles readRetired) 2).regs) :=
  merging_exact_iff _ (Machine.fresh_afterReset _) _ 2 readRetired_missStep

theorem merged_with_retired :
    ¬∀ (s : System .shipped) (input : Nat → Drive .shipped) (k : Nat), s.AfterReset →
      MissStep (s.toMachine.run (s.cycles input) k) (s.cycles input k) →
      MergesExactly (s.toMachine.run (s.cycles input) k) (s.cycles input k) := by
  intro hclaim
  have hmerges := hclaim (.fresh _) readRetired 2 ⟨rfl, rfl⟩ readRetired_missStep
  exact absurd (hmerges.stalls.mp (by decide +kernel)) (by decide +kernel)

/-! ### Which addresses are outstanding -/

def Origins.IsMiss (o : Origins cfg) (i : Fin cfg.numMshrs) : Prop :=
  ∃ request, o i = some (.miss request)

/-- What the clock edge puts in a slot beyond the signals from DRAM is a miss whose address no valid
MSHR holds. Every valid MSHR comes from what its origin says, and those that misses hold have different
addresses. -/
structure OneMissPerAddress (s : Machine cfg) (o : Origins cfg) (c : Cycle cfg) : Prop where
  allocates : s.Acts c → ∀ i, (s.step c).regs.mshrs i ≠ dramMshrs s.regs c i →
    misses s.regs c = true ∧ (s.step c).regs.mshrs i = missEntry c (dramMshrs s.regs c i) ∧
      ∀ j, (s.regs.mshrs j).valid = true → (s.regs.mshrs j).addr ≠ c.l2EntryPacket.targetAddr
  traced : Traced s.regs.mshrs o
  distinct : ∀ i j, i ≠ j → (s.regs.mshrs i).valid = true → (s.regs.mshrs j).valid = true →
    o.IsMiss i → o.IsMiss j → (s.regs.mshrs i).addr ≠ (s.regs.mshrs j).addr

/-- The slots last filled by misses have different addresses, whether they are valid or not. -/
def MissesApart (mshrs : Fin cfg.numMshrs → Mshr cfg) (o : Origins cfg) : Prop :=
  ∀ i j, i ≠ j → o.IsMiss i → o.IsMiss j → (mshrs i).addr ≠ (mshrs j).addr

theorem addr_ne_of_missAllocates {exists' : Bool} (h : missAllocates r c exists' = true)
    (i : Fin cfg.numMshrs) : (r.mshrs i).addr ≠ c.l2EntryPacket.targetAddr := by
  unfold missAllocates at h
  simp only [Bool.and_eq_true, Bool.not_eq_true', Bool.or_eq_false_iff] at h
  intro haddr
  have hfound : mshrMatch r c = true := decide_eq_true ⟨i, haddr⟩
  rw [h.1.2.2] at hfound
  cases hfound

theorem Origins.IsMiss.of_assign {i : Fin cfg.numMshrs} {k : Nat} {origin : Origin cfg}
    (h : Origins.IsMiss (assign o k fun _ => some origin) i) (hi : i.val ≠ k) : o.IsMiss i := by
  obtain ⟨request, hrequest⟩ := h
  rw [assign_apply, if_neg hi] at hrequest
  exact ⟨request, hrequest⟩

/-- A slot that a miss fills keeps its distance from all others, and so do the others. -/
theorem MissesApart.assign_miss (h : MissesApart r.mshrs o) {mshrs : Fin cfg.numMshrs → Mshr cfg}
    {k : Nat} (hsame : ∀ i, i.val ≠ k → (mshrs i).addr = (r.mshrs i).addr)
    (hnew : ∀ i, i.val = k → (mshrs i).addr = c.l2EntryPacket.targetAddr)
    (hfresh : ∀ i, (r.mshrs i).addr ≠ c.l2EntryPacket.targetAddr) :
    MissesApart mshrs (assign o k fun _ => some (.miss c.l2EntryPacket)) := by
  intro i j hne hi hj
  by_cases hik : i.val = k
  · have hjk : j.val ≠ k := fun hjk => hne (Fin.ext (hik.trans hjk.symm))
    rw [hnew i hik, hsame j hjk]
    exact (hfresh j).symm
  · by_cases hjk : j.val = k
    · rw [hnew j hjk, hsame i hik]
      exact hfresh i
    · rw [hsame i hik, hsame j hjk]
      exact h i j hne (hi.of_assign hik) (hj.of_assign hjk)

theorem MissesApart.assign_victim (h : MissesApart r.mshrs o)
    {mshrs : Fin cfg.numMshrs → Mshr cfg} {k : Nat} {addr : Addr} {data : CacheLine}
    (hsame : ∀ i, i.val ≠ k → (mshrs i).addr = (r.mshrs i).addr) :
    MissesApart mshrs (assign o k fun _ => some (.victim addr data)) := by
  have hother : ∀ {i : Fin cfg.numMshrs},
      Origins.IsMiss (assign o k fun _ => some (.victim addr data)) i → i.val ≠ k := by
    rintro i ⟨request, hrequest⟩ hik
    rw [assign_apply, if_pos hik] at hrequest
    cases hrequest
  intro i j hne hi hj
  rw [hsame i (hother hi), hsame j (hother hj)]
  exact h i j hne (hi.of_assign (hother hi)) (hj.of_assign (hother hj))

theorem missesApart_step (h : MissesApart s.regs.mshrs o) :
    MissesApart (s.step c).regs.mshrs (o.step s c) := by
  unfold Origins.step
  by_cases hreset : c.reset = true
  · rw [if_pos hreset]
    rintro i j - ⟨request, hrequest⟩
    cases hrequest
  · rw [if_neg hreset]
    by_cases hacts : s.Acts c
    · rw [if_pos hacts, Machine.step_regs_of_acts hacts, Machine.settle]
      have hsame : ∀ i : Fin cfg.numMshrs, i.val ≠ s.regs.freeIdx.toNat →
          ((comb s.regs c s.nets).next.mshrs i).addr = (s.regs.mshrs i).addr := by
        intro i hi
        rw [comb_mshrs_of_ne fun _ => hi, retiredMshrs_addr]
      by_cases hmiss : missAllocates s.regs c s.nets.mshrExists = true
      · rw [if_pos hmiss]
        refine h.assign_miss hsame (fun i hi => ?_) (addr_ne_of_missAllocates hmiss)
        rw [comb_mshrs, if_pos hmiss, assign_apply, if_pos hi]
        rfl
      · rw [if_neg hmiss]
        by_cases hvictim : victimAllocates s.regs c = true
        · rw [if_pos hvictim]
          exact h.assign_victim hsame
        · rw [if_neg hvictim]
          intro i j hne hi hj
          rw [comb_mshrs_of_ne fun halloc => absurd halloc (by simp [hmiss, hvictim]),
            comb_mshrs_of_ne fun halloc => absurd halloc (by simp [hmiss, hvictim]),
            retiredMshrs_addr, retiredMshrs_addr]
          exact h i j hne hi hj
    · rw [if_neg hacts, Machine.step_regs_of_frozen (by simpa using hreset) hacts]
      exact h

theorem run_missesApart (input : Nat → Cycle cfg) (k : Nat) :
    MissesApart (s.run input k).regs.mshrs (Origins.run s input k) := by
  refine Clocked.history_invariant Origins.step _ (fun s o => MissesApart s.regs.mshrs o)
    (fun _ _ _ => True) ?_ (fun _ _ _ h _ => missesApart_step h) fun _ _ => trivial
  rintro i j - ⟨request, hrequest⟩
  cases hrequest

/-- A slot that holds something else than the signals from DRAM leave in it has been filled by a
miss. -/
theorem missAllocates_of_ne (hacts : s.Acts c) {i : Fin cfg.numMshrs}
    (hne : (s.step c).regs.mshrs i ≠ dramMshrs s.regs c i) :
    missAllocates s.regs c s.nets.mshrExists = true ∧
      (s.step c).regs.mshrs i = missEntry c (dramMshrs s.regs c i) := by
  rw [Machine.step_regs_of_acts hacts, Machine.settle, comb_mshrs] at hne ⊢
  by_cases halloc : missAllocates s.regs c s.nets.mshrExists = true
  · rw [if_pos halloc, assign_apply] at hne ⊢
    by_cases hi : i.val = s.regs.freeIdx.toNat
    · rw [if_pos hi]
      exact ⟨halloc, rfl⟩
    · rw [if_neg hi] at hne
      exact absurd rfl hne
  · rw [if_neg halloc] at hne
    exact absurd rfl hne

/-- **At most one miss is outstanding for each address.** -/
theorem one_miss_per_address (s : Machine cfg) (hreset : s.AfterReset) (input : Nat → Cycle cfg)
    (k : Nat) : OneMissPerAddress (s.run input k) (Origins.run s input k) (input k) where
  allocates hacts i hne := by
    obtain ⟨halloc, hentry⟩ := missAllocates_of_ne hacts hne
    exact ⟨(missAllocates_eq_true.mp halloc).1, hentry, fun j _ => addr_ne_of_missAllocates halloc j⟩
  traced := run_traced hreset input k
  distinct i j hne _ _ hi hj := run_missesApart input k i j hne hi hj

/-- Three cores read two lines. -/
def threeReads : Nat → Cycle .shipped
  | 0 => { Cycle.idle .shipped with toDrive := .request .read 0x40 1 }
  | 1 => { Cycle.idle .shipped with toDrive := .request .read 0x80 2 }
  | 2 => { Cycle.idle .shipped with toDrive := .request .read 0x40 3 }
  | _ + 3 => .idle _

theorem threeReads_onePerAddress :
    OneMissPerAddress ((Machine.fresh .shipped).run threeReads 3)
      (Origins.run (.fresh _) threeReads 3) (threeReads 3) :=
  one_miss_per_address _ (Machine.fresh_afterReset _) threeReads 3

end MultiCoreL2Cache
