import MultiCoreL2Cache.Library.Ring
import MultiCoreL2Cache.Model.Dram
import MultiCoreL2Cache.Proof.Slots

/-!
# The MSHRs as a queue

The MSHR array with `wait_idx` and `free_idx` is a ring that holds the queue of outstanding requests.
A dirty victim takes the slot at `free_idx` without looking at its valid bit. That is safe in a full
ring because the refill that evicts the victim retires the head, which in a full ring is that slot.
-/

namespace MultiCoreL2Cache

open Packed Ring

variable {cfg : Config} {r : Regs cfg} {c : Cycle cfg} {n : Nets cfg}

def slotOf (mshrs : Fin cfg.numMshrs → Mshr cfg) (k : Nat) : Mshr cfg :=
  (select? mshrs k).getD (.zero cfg)

abbrev Regs.Queue (r : Regs cfg) (queue : List (Mshr cfg)) : Prop :=
  Holds cfg.numMshrs (fun entry => entry.valid = true) (slotOf r.mshrs) r.waitIdx.toNat
    r.freeIdx.toNat queue

theorem slotOf_assign (mshrs : Fin cfg.numMshrs → Mshr cfg) (f : Mshr cfg → Mshr cfg) {i k : Nat}
    (hk : k < cfg.numMshrs) :
    slotOf (assign mshrs i f) k = Function.update (slotOf mshrs) i (f (slotOf mshrs i)) k := by
  unfold slotOf
  rw [select?_assign]
  by_cases hki : k = i
  · subst hki
    simp [select?_of_lt _ hk]
  · simp [hki]

/-- The pointers have three bits, enough for the remainder by at most eight slots. -/
theorem advance_toNat {m : Nat} (hm : m ≤ 8) (hpos : 0 < m) (idx : BitVec 3) :
    (advance m idx).toNat = (idx.toNat + 1) % m := by
  unfold advance
  rw [BitVec.toNat_ofNat]
  apply Nat.mod_eq_of_lt
  calc (idx.toNat + 1) % m < m := Nat.mod_lt _ hpos
    _ ≤ 2 ^ 3 := hm

/-- Where the head of the ring belongs after a cycle: a response takes the entry at `wait_idx`. -/
def headAfter (r : Regs cfg) (c : Cycle cfg) : Nat :=
  if c.rPacket.rValid || c.bPacket.bValid then (r.waitIdx.toNat + 1) % cfg.numMshrs
  else r.waitIdx.toNat

/-- `(wait_idx + 1) % WAYS` is `(wait_idx + 1) % NUM_MSHRS` in the three bits of the pointer. -/
def WrapsAlike (r : Regs cfg) : Prop :=
  advance cfg.ways r.waitIdx = advance cfg.numMshrs r.waitIdx

instance (r : Regs cfg) : Decidable (WrapsAlike r) := instDecidableEqBitVec _ _

theorem nextWaitIdx_eq_headAfter_iff (hle : cfg.numMshrs ≤ 8) :
    (nextWaitIdx r c).toNat = headAfter r c ↔
      (c.bPacket.bValid = true → c.rPacket.rValid = false → WrapsAlike r) := by
  have hadvance := advance_toNat hle cfg.numMshrs_pos r.waitIdx
  unfold nextWaitIdx headAfter WrapsAlike
  rw [← BitVec.toNat_inj, hadvance]
  cases c.rPacket.rValid <;> cases c.bPacket.bValid <;> simp [hadvance]

/-- Where the array has `WAYS` slots the two responses wrap `wait_idx` alike. -/
theorem wrapsAlike_of_size (hsize : cfg.numMshrs = cfg.ways) : WrapsAlike r := by
  rw [WrapsAlike, hsize]

theorem nextWaitIdx_toNat (hsize : cfg.numMshrs = cfg.ways) (hle : cfg.numMshrs ≤ 8)
    (hresp : (c.rPacket.rValid || c.bPacket.bValid) = true) :
    (nextWaitIdx r c).toNat = (r.waitIdx.toNat + 1) % cfg.numMshrs := by
  rw [(nextWaitIdx_eq_headAfter_iff hle).mpr fun _ _ => wrapsAlike_of_size hsize, headAfter,
    if_pos hresp]

theorem retired_holds {queue : List (Mshr cfg)} (hq : r.Queue queue)
    (hhead : (c.rPacket.rValid || c.bPacket.bValid) = true →
      (mshrAt r.mshrs r.waitIdx).valid = true) :
    Holds cfg.numMshrs (fun entry => entry.valid = true) (slotOf (retiredMshrs r c))
      (headAfter r c) r.freeIdx.toNat
      (if c.rPacket.rValid || c.bPacket.bValid then queue.tail else queue) := by
  unfold retiredMshrs headAfter
  by_cases hresp : (c.rPacket.rValid || c.bPacket.bValid) = true
  · rw [if_pos hresp, if_pos hresp, if_pos hresp]
    have hlive := hq.live_head_iff.mp (hhead hresp)
    obtain ⟨x, rest, rfl⟩ := List.exists_cons_of_ne_nil hlive
    rw [List.tail_cons]
    refine (hq.pop { slotOf r.mshrs r.waitIdx.toNat with valid := false } (by simp)).congr ?_
    intro k hk
    exact slotOf_assign r.mshrs _ hk
  · rw [if_neg hresp, if_neg hresp, if_neg hresp]
    exact hq

/-- The entry that joins the queue in a cycle. A miss overwrites the write-back allocated in the
same cycle, keeping only its data. -/
def joining (r : Regs cfg) (c : Cycle cfg) (exists' : Bool) : List (Mshr cfg) :=
  if missAllocates r c exists' then [missEntry c (slotOf (dramMshrs r c) r.freeIdx.toNat)]
  else if victimAllocates r c then [victimEntry r c]
  else []

theorem joining_length_le (r : Regs cfg) (c : Cycle cfg) (exists' : Bool) :
    (joining r c exists').length ≤ 1 := by
  unfold joining
  split
  · simp
  · split <;> simp

theorem joining_of_allocates {exists' : Bool}
    (h : (missAllocates r c exists' || victimAllocates r c) = true) :
    ∃ entry, entry.valid = true ∧ joining r c exists' = [entry] ∧
      ∀ k < cfg.numMshrs,
        slotOf (if missAllocates r c exists' then
            assign (dramMshrs r c) r.freeIdx.toNat (missEntry c)
          else dramMshrs r c) k =
        Function.update (slotOf (retiredMshrs r c)) r.freeIdx.toNat entry k := by
  unfold joining
  by_cases hmiss : missAllocates r c exists' = true
  · rw [if_pos hmiss, if_pos hmiss]
    refine ⟨_, rfl, rfl, fun k hk => ?_⟩
    rw [slotOf_assign _ _ hk]
    by_cases hfree : k = r.freeIdx.toNat
    · rw [hfree, Function.update_self, Function.update_self]
    · rw [Function.update_of_ne hfree, Function.update_of_ne hfree]
      unfold dramMshrs
      split
      · rw [slotOf_assign _ _ hk, Function.update_of_ne hfree]
      · rfl
  · have hvictim : victimAllocates r c = true := by simpa [hmiss] using h
    rw [if_neg hmiss, if_neg hmiss, if_pos hvictim]
    refine ⟨_, (victimEntry_flags hvictim).1, rfl, fun k hk => ?_⟩
    unfold dramMshrs
    rw [if_pos hvictim, slotOf_assign _ _ hk]

/-- **One cycle on the queue.** A response removes the front, an allocation joins the back. -/
theorem comb_holds {queue : List (Mshr cfg)} (hle : cfg.numMshrs ≤ 8) (hq : r.Queue queue)
    (hhead : (c.rPacket.rValid || c.bPacket.bValid) = true →
      (mshrAt r.mshrs r.waitIdx).valid = true) :
    Holds cfg.numMshrs (fun entry => entry.valid = true) (slotOf (comb r c n).next.mshrs)
      (headAfter r c) (comb r c n).next.freeIdx.toNat
      ((if c.rPacket.rValid || c.bPacket.bValid then queue.tail else queue) ++
        joining r c n.mshrExists) := by
  have hretired := retired_holds hq hhead
  rw [comb_mshrs, comb_freeIdx]
  by_cases hjoin : (missAllocates r c n.mshrExists || victimAllocates r c) = true
  · obtain ⟨entry, hvalid, hlist, hslots⟩ := joining_of_allocates hjoin
    rw [hlist, if_pos hjoin, advance_toNat hle cfg.numMshrs_pos]
    refine (hretired.push ?_ entry hvalid).congr hslots
    -- a miss needs a free slot at the tail; a write-back comes with the retirement of the head
    by_cases hresp : (c.rPacket.rValid || c.bPacket.bValid) = true
    · have hlive := hq.live_head_iff.mp (hhead hresp)
      have hlen := hq.length_le
      rw [if_pos hresp, List.length_tail]
      have := List.length_pos_iff.mpr hlive
      omega
    · rw [if_neg hresp]
      have hnoVictim : victimAllocates r c = false := by
        by_contra hvictim
        have hr := rValid_of_victimAllocates (by simpa using hvictim)
        simp [hr] at hresp
      have hmiss : missAllocates r c n.mshrExists = true := by simpa [hnoVictim] using hjoin
      have hfree : (slotOf r.mshrs r.freeIdx.toNat).valid = false := by
        unfold missAllocates at hmiss
        simp only [Bool.and_eq_true, Bool.not_eq_true'] at hmiss
        exact hmiss.2
      have hnotFull : queue.length ≠ cfg.numMshrs := by
        intro hfull
        have := hq.live_tail_iff.mpr hfull
        rw [hfree] at this
        cases this
      have := hq.length_le
      omega
  · have hnoMiss : missAllocates r c n.mshrExists = false := by
      simp only [Bool.or_eq_true, not_or] at hjoin
      simpa using hjoin.1
    have hnoVictim : victimAllocates r c = false := by
      simp only [Bool.or_eq_true, not_or] at hjoin
      simpa using hjoin.2
    have hnone : joining r c n.mshrExists = [] := by simp [joining, hnoMiss, hnoVictim]
    have hdram : dramMshrs r c = retiredMshrs r c := by simp [dramMshrs, hnoVictim]
    rw [if_neg hjoin, hnone, List.append_nil, hnoMiss, if_neg (by simp), hdram]
    exact hretired

theorem comb_queue_of_alike {queue : List (Mshr cfg)} (hle : cfg.numMshrs ≤ 8)
    (hq : r.Queue queue)
    (hhead : (c.rPacket.rValid || c.bPacket.bValid) = true →
      (mshrAt r.mshrs r.waitIdx).valid = true)
    (halike : c.bPacket.bValid = true → c.rPacket.rValid = false → WrapsAlike r) :
    (comb r c n).next.Queue
      ((if c.rPacket.rValid || c.bPacket.bValid then queue.tail else queue) ++
        joining r c n.mshrExists) := by
  unfold Regs.Queue
  rw [comb_waitIdx, (nextWaitIdx_eq_headAfter_iff hle).mpr halike]
  exact comb_holds hle hq hhead

theorem comb_queue {queue : List (Mshr cfg)} (hsize : cfg.numMshrs = cfg.ways)
    (hle : cfg.numMshrs ≤ 8) (hq : r.Queue queue)
    (hhead : (c.rPacket.rValid || c.bPacket.bValid) = true →
      (mshrAt r.mshrs r.waitIdx).valid = true) :
    (comb r c n).next.Queue
      ((if c.rPacket.rValid || c.bPacket.bValid then queue.tail else queue) ++
        joining r c n.mshrExists) :=
  comb_queue_of_alike hle hq hhead fun _ _ => wrapsAlike_of_size hsize

/-! ### The head after a cycle -/

def allocates (s : Machine cfg) (c : Cycle cfg) : Bool :=
  missAllocates s.regs c s.nets.mshrExists || victimAllocates s.regs c

section Head

variable {s : Machine cfg} (hsize : cfg.numMshrs = cfg.ways) (hle : cfg.numMshrs ≤ 8)
  (hm : 1 < cfg.numMshrs) (hqueue : ∃ queue, s.regs.Queue queue)
include hsize hle hm hqueue

theorem next_ne_free (halloc : allocates s c = true)
    (hvalid : (mshrAt s.regs.mshrs (nextWaitIdx s.regs c)).valid = true) :
    (nextWaitIdx s.regs c).toNat ≠ s.regs.freeIdx.toNat := by
  obtain ⟨queue, hq⟩ := hqueue
  unfold allocates at halloc
  rcases (Bool.or_eq_true _ _).mp halloc with hmiss | hvictim
  · intro heq
    unfold missAllocates at hmiss
    simp only [Bool.and_eq_true, Bool.not_eq_true'] at hmiss
    rw [BitVec.eq_of_toNat_eq heq, hmiss.2] at hvalid
    cases hvalid
  · have hr := rValid_of_victimAllocates hvictim
    have hnext : (nextWaitIdx s.regs c).toNat = (s.regs.waitIdx.toNat + 1) % cfg.numMshrs :=
      nextWaitIdx_toNat hsize hle (by simp [hr])
    rw [hnext]
    refine hq.second_ne_tail hm ?_
    rw [← hnext]
    exact hvalid

/-- A valid entry that comes to the head is what the registers held there before the edge. -/
theorem step_head_eq (hacts : s.Acts c)
    (hvalid : (mshrAt s.regs.mshrs (nextWaitIdx s.regs c)).valid = true) :
    (s.step c).regs.head = mshrAt s.regs.mshrs (nextWaitIdx s.regs c) := by
  have hlt := lt_of_mshrAt_valid hvalid
  have hne : (c.rPacket.rValid || c.bPacket.bValid) = true →
      (nextWaitIdx s.regs c).toNat ≠ s.regs.waitIdx.toNat := by
    obtain ⟨queue, hq⟩ := hqueue
    intro hresp
    rw [nextWaitIdx_toNat hsize hle hresp]
    exact Ring.succ_ne hq.head_lt hm
  rw [Machine.step_regs_of_acts hacts, Machine.settle, Regs.head, comb_waitIdx, mshrAt_of_lt _ hlt,
    mshrAt_of_lt _ hlt,
    comb_mshrs_of_ne fun halloc => next_ne_free hsize hle hm hqueue halloc hvalid,
    retiredMshrs_of_ne hne]

end Head

/-! ### Runs -/

/-- DRAM raises a response only while the MSHR at `wait_idx` is valid. -/
def RespondsToHead (s : Machine cfg) (c : Cycle cfg) : Prop :=
  c.rPacket.rValid = true ∨ c.bPacket.bValid = true →
    (mshrAt s.regs.mshrs s.regs.waitIdx).valid = true

instance (s : Machine cfg) (c : Cycle cfg) : Decidable (RespondsToHead s c) :=
  inferInstanceAs (Decidable (_ → _))

theorem queue_reset (cfg : Config) : (Regs.reset cfg).Queue [] := by
  refine holds_nil cfg.numMshrs_pos fun k hk => ?_
  simp [slotOf, Regs.reset, select?_of_lt _ hk, Mshr.zero]

theorem step_queue {s : Machine cfg} {queue : List (Mshr cfg)} (hsize : cfg.numMshrs = cfg.ways)
    (hle : cfg.numMshrs ≤ 8) (hq : s.regs.Queue queue) (hdram : RespondsToHead s c)
    (hacts : s.Acts c) :
    (s.step c).regs.Queue
      ((if c.rPacket.rValid || c.bPacket.bValid then queue.tail else queue) ++
        joining s.regs c s.nets.mshrExists) := by
  rw [Machine.step_regs_of_acts hacts]
  exact comb_queue hsize hle hq fun hresp => hdram (by simpa using hresp)

theorem step_fifo {s : Machine cfg} {queue : List (Mshr cfg)} (hsize : cfg.numMshrs = cfg.ways)
    (hle : cfg.numMshrs ≤ 8) (hq : s.regs.Queue queue) (hdram : RespondsToHead s c)
    (hacts : s.Acts c) :
    ∃ queue', (s.step c).regs.Queue queue' ∧
      FifoStep cfg.numMshrs (c.rPacket.rValid = true ∨ c.bPacket.bValid = true) queue queue' := by
  have hnext := step_queue hsize hle hq hdram hacts
  refine ⟨_, hnext, fun hresp => hq.live_head_iff.mp (hdram hresp), hnext.length_le,
    joining s.regs c s.nets.mshrExists, joining_length_le _ _ _, ?_⟩
  by_cases hresp : c.rPacket.rValid = true ∨ c.bPacket.bValid = true
  · have hlive := hq.live_head_iff.mp (hdram hresp)
    obtain ⟨x, rest, rfl⟩ := List.exists_cons_of_ne_nil hlive
    simp [hresp]
  · simp [hresp]

theorem run_queue {s : Machine cfg} {input : Nat → Cycle cfg} (hsize : cfg.numMshrs = cfg.ways)
    (hle : cfg.numMshrs ≤ 8) (hreset : s.AfterReset) {k : Nat}
    (hdram : ∀ j < k, RespondsToHead (s.run input j) (input j)) :
    ∃ queue, (s.run input k).regs.Queue queue := by
  refine Machine.run_regs_invariant (fun r => ∃ queue, r.Queue queue) RespondsToHead hreset
    ⟨[], queue_reset cfg⟩ ?_ hdram
  rintro s c hacts ⟨queue, hq⟩ hlegal
  have hnext := step_queue hsize hle hq hlegal hacts
  rw [Machine.step_regs_of_acts hacts] at hnext
  exact ⟨_, hnext⟩

/-- In cycle `k` the ring holds a queue. If the cycle acts it takes one FIFO step, which pops exactly
when DRAM responds; if it is frozen no register changes. -/
def FifoAt (s : Machine cfg) (input : Nat → Cycle cfg) (k : Nat) : Prop :=
  ∃ queue, (s.run input k).regs.Queue queue ∧
    ((s.run input k).Acts (input k) →
      ∃ queue', (s.run input (k + 1)).regs.Queue queue' ∧
        FifoStep cfg.numMshrs
          ((input k).rPacket.rValid = true ∨ (input k).bPacket.bValid = true) queue queue') ∧
    ((input k).reset = false → ¬(s.run input k).Acts (input k) →
      (s.run input (k + 1)).regs = (s.run input k).regs)

/-- **The MSHR array refines a bounded FIFO queue.** -/
theorem mshrs_refine_fifo (s : Machine .shipped) (hreset : s.AfterReset)
    (input : Nat → Cycle .shipped) (k : Nat)
    (hdram : ∀ j ≤ k, RespondsToHead (s.run input j) (input j)) : FifoAt s input k := by
  obtain ⟨queue, hq⟩ := run_queue rfl (by decide) hreset fun j hj => hdram j (Nat.le_of_lt hj)
  refine ⟨queue, hq, fun hacts => ?_, fun hrst hfrozen => ?_⟩
  · exact step_fifo rfl (by decide) hq (hdram k le_rfl) hacts
  · exact Machine.step_regs_of_frozen hrst hfrozen

def readThenRefill : Nat → Cycle .shipped
  | 0 => { Cycle.idle .shipped with
      l2EntryPacket := { reqType := .read, cacheLine := 0#512, targetAddr := 0x40, coreId := 1 } }
  | 1 => { Cycle.idle .shipped with rPacket := { rData := 7#512, rValid := true, rResp := false } }
  | _ + 2 => Cycle.idle .shipped

theorem readThenRefill_fifo : FifoAt (Machine.fresh .shipped) readThenRefill 1 := by
  refine mshrs_refine_fifo _ (Machine.fresh_afterReset _) readThenRefill 1 fun j hj => ?_
  rcases Nat.le_one_iff_eq_zero_or_eq_one.mp hj with rfl | rfl
  · rintro (hr | hb)
    · exact absurd hr (by decide)
    · exact absurd hb (by decide)
  · intro _
    decide

end MultiCoreL2Cache
