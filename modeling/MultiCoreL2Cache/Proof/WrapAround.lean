import MultiCoreL2Cache.Proof.Blind
import MultiCoreL2Cache.Proof.MshrRing

/-!
# Where the two responses wrap

A read response advances `wait_idx` modulo `NUM_MSHRS`, a write response modulo `WAYS`. The ring of
valid MSHRs survives a write response exactly where both come to the same slot.
-/

namespace MultiCoreL2Cache

open Packed Ring

variable {cfg : Config} {r : Regs cfg} {c : Cycle cfg} {n : Nets cfg} {s : Machine cfg}
  {input : Nat → Cycle cfg}

/-- The valid MSHRs are the `len` slots from `wait_idx` on, and `free_idx` is where they end. -/
structure Regs.Segment (r : Regs cfg) (len : Nat) : Prop where
  waitIdx_lt : r.waitIdx.toNat < cfg.numMshrs
  len_le : len ≤ cfg.numMshrs
  freeIdx_eq : r.freeIdx.toNat = (r.waitIdx.toNat + len) % cfg.numMshrs
  valid_iff : ∀ k < cfg.numMshrs,
    (slotOf r.mshrs ((r.waitIdx.toNat + k) % cfg.numMshrs)).valid = true ↔ k < len

def RingIntact (r : Regs cfg) : Prop := ∃ len, r.Segment len

theorem ringIntact_iff : RingIntact r ↔ ∃ queue, r.Queue queue := by
  constructor
  · rintro ⟨len, h⟩
    let entry : Fin len → Mshr cfg := fun k =>
      slotOf r.mshrs ((r.waitIdx.toNat + k) % cfg.numMshrs)
    have hlen : (List.ofFn entry).length = len := List.length_ofFn
    refine ⟨List.ofFn entry, h.waitIdx_lt, ?_, ?_, fun k hk => ?_, fun k hk => ?_⟩
    · rw [hlen]
      exact h.len_le
    · rw [hlen]
      exact h.freeIdx_eq
    · rw [hlen]
      exact h.valid_iff k hk
    · rw [List.getElem_ofFn]
  · rintro ⟨queue, h⟩
    exact ⟨queue.length, h.head_lt, h.length_le, h.tail_eq, h.live_iff⟩

/-! ### One cycle -/

/-- The slots form a ring from where the head belongs, and a ring has one head. -/
theorem comb_ringIntact_iff (hle : cfg.numMshrs ≤ 8) (hring : RingIntact r)
    (hhead : (c.rPacket.rValid || c.bPacket.bValid) = true →
      (mshrAt r.mshrs r.waitIdx).valid = true) :
    RingIntact (comb r c n).next ↔
      (c.bPacket.bValid = true → c.rPacket.rValid = false → WrapsAlike r) := by
  obtain ⟨queue, hq⟩ := ringIntact_iff.mp hring
  rw [ringIntact_iff]
  constructor
  · rintro ⟨queue', hq'⟩
    have hheads := hq'.head_unique (comb_holds hle hq hhead)
    rw [comb_waitIdx] at hheads
    exact (nextWaitIdx_eq_headAfter_iff hle).mp hheads
  · exact fun halike => ⟨_, comb_queue_of_alike hle hq hhead halike⟩

def TakesWriteResponse (s : Machine cfg) (c : Cycle cfg) : Prop :=
  s.Acts c ∧ c.bPacket.bValid = true ∧ c.rPacket.rValid = false

theorem step_ringIntact_iff (hle : cfg.numMshrs ≤ 8) (hring : RingIntact s.regs)
    (hdram : RespondsToHead s c) :
    RingIntact (s.step c).regs ↔ (TakesWriteResponse s c → WrapsAlike s.regs) := by
  by_cases hacts : s.Acts c
  · rw [Machine.step_regs_of_acts hacts, Machine.settle,
      comb_ringIntact_iff hle hring fun hresp => hdram (by simpa using hresp)]
    simp [TakesWriteResponse, hacts]
  · refine iff_of_true ?_ fun htakes => absurd htakes.1 hacts
    by_cases hreset : c.reset = true
    · rw [Machine.step_regs_of_reset hreset]
      exact ringIntact_iff.mpr ⟨[], queue_reset cfg⟩
    · rw [Machine.step_regs_of_frozen (by simpa using hreset) hacts]
      exact hring

/-! ### Runs -/

/-- **The MSHR ring survives a run exactly when every write response in it wraps as a read response
would.** -/
theorem ring_intact_iff (hle : cfg.numMshrs ≤ 8) (hreset : s.AfterReset)
    (hdram : ∀ k, RespondsToHead (s.run input k) (input k)) :
    (∀ k, RingIntact (s.run input k).regs) ↔
      ∀ k, TakesWriteResponse (s.run input k) (input k) → WrapsAlike (s.run input k).regs := by
  refine Clocked.forall_iff ?_ fun k hring => step_ringIntact_iff hle hring (hdram k)
  have hzero : (s.run input 0).regs = .reset cfg := hreset
  rw [hzero]
  exact ringIntact_iff.mpr ⟨[], queue_reset cfg⟩

/-- One way wraps every write response to slot 0. -/
def oneWay : Config := { Config.shipped with ways := 1, ways_pos := Nat.one_pos }

def writeAcked : Nat → Cycle oneWay
  | 0 => { Cycle.idle oneWay with
      l2EntryPacket := { reqType := .write, cacheLine := 0#512, targetAddr := 0x40, coreId := 1 } }
  | 1 => { Cycle.idle oneWay with bPacket := { bValid := true, bResp := false } }
  | _ + 2 => Cycle.idle oneWay

theorem writeAcked_responds (k : Nat) :
    RespondsToHead ((Machine.fresh oneWay).run writeAcked k) (writeAcked k) := by
  match k with
  | 0 => decide
  | 1 => decide
  | _ + 2 => exact fun hresp => hresp.elim (fun h => nomatch h) (fun h => nomatch h)

theorem writeAcked_intact_iff :
    (∀ k, RingIntact ((Machine.fresh oneWay).run writeAcked k).regs) ↔
      ∀ k, TakesWriteResponse ((Machine.fresh oneWay).run writeAcked k) (writeAcked k) →
        WrapsAlike ((Machine.fresh oneWay).run writeAcked k).regs :=
  ring_intact_iff (by decide) (Machine.fresh_afterReset _) writeAcked_responds

theorem ring_not_intact :
    ¬∀ (cfg : Config) (s : Machine cfg) (input : Nat → Cycle cfg), cfg.numMshrs ≤ 8 →
      s.AfterReset → (∀ k, RespondsToHead (s.run input k) (input k)) →
      ∀ k, RingIntact (s.run input k).regs := by
  intro hclaim
  obtain ⟨len, hseg⟩ := hclaim oneWay (.fresh _) writeAcked (by decide) rfl writeAcked_responds 2
  have hwait : (((Machine.fresh oneWay).run writeAcked 2).regs.waitIdx) = 0 := by decide
  have hfree : (((Machine.fresh oneWay).run writeAcked 2).regs.freeIdx) = 1 := by decide
  -- the segment from slot 0 to slot 1 holds slot 0, which the response has cleared
  have hlen : 0 < len := by
    have hend := hseg.freeIdx_eq
    rw [hwait, hfree] at hend
    apply Nat.pos_of_ne_zero
    rintro rfl
    cases hend
  have hvalid := (hseg.valid_iff 0 (by decide)).mpr hlen
  rw [hwait] at hvalid
  exact absurd hvalid (by decide)

/-! ### The pointers of a configuration -/

theorem advance_eq_iff {m ways : Nat} (hm : 0 < m) (hways : 0 < ways) (hle : m ≤ 8) :
    (∀ idx : BitVec 3, idx.toNat < m → advance ways idx = advance m idx) ↔
      ways = m ∨ (m = 8 ∧ 8 ≤ ways) := by
  have hadvance : ∀ n (idx : BitVec 3), (advance n idx).toNat = (idx.toNat + 1) % n % 8 :=
    fun n idx => BitVec.toNat_ofNat _ _
  constructor
  · intro halike
    have hslots : ∀ x < m, (x + 1) % ways % 8 = (x + 1) % m % 8 := by
      intro x hx
      have hidx : (BitVec.ofNat 3 x).toNat = x := by
        rw [BitVec.toNat_ofNat]
        exact Nat.mod_eq_of_lt (by omega)
      have heq := congrArg BitVec.toNat (halike (BitVec.ofNat 3 x) (by omega))
      rwa [hadvance, hadvance, hidx] at heq
    rcases Nat.lt_trichotomy ways m with hlt | heq | hgt
    · -- after slot `ways - 1` a write response goes back to slot 0
      have hlast := hslots (ways - 1) (by omega)
      rw [Nat.sub_add_cancel hways, Nat.mod_self, Nat.mod_eq_of_lt hlt] at hlast
      omega
    · exact .inl heq
    · -- after slot `m - 1` it leaves the array, unless the pointer has no bit for that
      have hlast := hslots (m - 1) (by omega)
      rw [Nat.sub_add_cancel hm, Nat.mod_self, Nat.mod_eq_of_lt hgt] at hlast
      exact .inr (by omega)
  · rintro (rfl | ⟨rfl, hlarge⟩) idx hidx
    · rfl
    · rw [← BitVec.toNat_inj, hadvance, hadvance]
      rcases Nat.lt_or_ge (idx.toNat + 1) ways with hlt | hge
      · rw [Nat.mod_eq_of_lt hlt, Nat.mod_mod]
      · rw [show ways = 8 by omega]

/-! ### Reachable rings -/

/-- The states that runs reach under a DRAM that answers the head only. -/
inductive Reachable : Machine cfg → Prop
  | start {s : Machine cfg} (hreset : s.AfterReset) : Reachable s
  | step {s : Machine cfg} {c : Cycle cfg} (hs : Reachable s) (hdram : RespondsToHead s c) :
      Reachable (s.step c)

theorem Reachable.ringIntact (hle : cfg.numMshrs ≤ 8)
    (halike : cfg.ways = cfg.numMshrs ∨ (cfg.numMshrs = 8 ∧ 8 ≤ cfg.ways)) (h : Reachable s) :
    RingIntact s.regs := by
  induction h with
  | start hreset =>
      rw [hreset]
      exact ringIntact_iff.mpr ⟨[], queue_reset cfg⟩
  | step _ hdram ih =>
      refine (step_ringIntact_iff hle ih hdram).mpr fun _ => ?_
      obtain ⟨len, hseg⟩ := ih
      exact (advance_eq_iff cfg.numMshrs_pos cfg.ways_pos hle).mpr halike _ hseg.waitIdx_lt

/-! Misses answered one by one by read responses take the head to any slot of the array. -/

/-- A state on the way: nothing waits and no core is stalled, no MSHR has an address above `bound`,
and the ring from slot `j` on holds `queue`. -/
structure Lap (s : Machine cfg) (j bound : Nat) (queue : List (Mshr cfg)) : Prop where
  reachable : Reachable s
  waiting : s.nets.waiting = false
  unmatched : s.nets.mshrExists = false
  stall : ∀ core, (s.regs.l2ExitPacket core).stall = false
  addr_le : ∀ i, (s.regs.mshrs i).addr.toNat ≤ bound
  waitIdx : s.regs.waitIdx.toNat = j
  queue : s.regs.Queue queue

def missCycle (cfg : Config) (kind : ReqType) (j : Nat) : Cycle cfg :=
  { Cycle.idle cfg with
    l2EntryPacket :=
      { reqType := kind, cacheLine := 0#512, targetAddr := BitVec.ofNat 32 (j + 1), coreId := 0 } }

def responseCycle (cfg : Config) : Cycle cfg :=
  { Cycle.idle cfg with rPacket := { rData := 0#512, rValid := true, rResp := false } }

namespace Lap

variable {j bound : Nat} {queue : List (Mshr cfg)} {kind : ReqType}

theorem start (cfg : Config) : Lap (Machine.fresh cfg) 0 0 [] where
  reachable := .start rfl
  waiting := rfl
  unmatched := rfl
  stall _ := rfl
  addr_le _ := Nat.le_refl 0
  waitIdx := rfl
  queue := queue_reset cfg

theorem acts (h : Lap s j bound queue) (hblind : c.Blind) (hreset : c.reset = false) :
    s.Acts c := by
  refine ⟨hreset, ?_⟩
  rw [Machine.settle, comb_waiting, hitActive_of_blind hblind, victimActive_of_blind hblind]
  exact h.waiting

theorem misses_missCycle (h : Lap s j bound queue) (hkind : kind = .read ∨ kind = .write) :
    misses s.regs (missCycle cfg kind j) = true := by
  have hstall : stalled s.regs (missCycle cfg kind j) = false := h.stall _
  rw [misses_of_blind fun _ => rfl, readOrWrite, hstall]
  exact decide_eq_true hkind

theorem mshrMatch_missCycle (h : Lap s j j queue) (hj : j < 8) :
    mshrMatch s.regs (missCycle cfg kind j) = false := by
  unfold mshrMatch
  rw [decide_eq_false_iff_not]
  rintro ⟨i, hi⟩
  have haddr := h.addr_le i
  rw [hi] at haddr
  simp only [missCycle, BitVec.toNat_ofNat] at haddr
  omega

theorem missAllocates (h : Lap s j j []) (hj : j < 8) (hkind : kind = .read ∨ kind = .write) :
    missAllocates s.regs (missCycle cfg kind j) s.nets.mshrExists = true := by
  have hfree : (mshrAt s.regs.mshrs s.regs.freeIdx).valid = false := by
    have hempty : ([] : List (Mshr cfg)).length ≠ cfg.numMshrs := cfg.numMshrs_pos.ne
    exact eq_false_of_ne_true (mt h.queue.live_tail_iff.mp hempty)
  unfold MultiCoreL2Cache.missAllocates
  rw [h.misses_missCycle hkind, h.mshrMatch_missCycle hj, hfree, h.unmatched]
  rfl

theorem step_missCycle (hle : cfg.numMshrs ≤ 8) (h : Lap s j j []) (hj : j < 8)
    (kind : ReqType) (hkind : kind = .read ∨ kind = .write) :
    ∃ entry, Lap (s.step (missCycle cfg kind j)) j (j + 1) [entry] := by
  have hacts : s.Acts (missCycle cfg kind j) := h.acts (fun _ => rfl) rfl
  have halloc := h.missAllocates hj hkind
  have hregs := Machine.step_regs_of_acts hacts
  have hqueue := comb_queue_of_alike (c := missCycle cfg kind j) (n := s.nets) hle h.queue
    (fun hresp => nomatch hresp) (fun hresp => nomatch hresp)
  rw [joining, if_pos halloc] at hqueue
  refine ⟨_, h.reachable.step ?_, hacts.2, ?_, fun core => ?_, fun i => ?_, ?_, hregs ▸ hqueue⟩
  · rintro (hresp | hresp) <;> cases hresp
  · rw [Machine.step_nets, Machine.settle, comb_mshrExists, h.mshrMatch_missCycle hj, h.unmatched,
      Bool.and_false, Bool.or_false]
  · rw [hregs, Machine.settle, comb_l2ExitPacket]
    dsimp only
    split
    · rw [exitAfter, halloc, h.stall]
      simp
    · exact h.stall core
  · have hkept : dramMshrs s.regs (missCycle cfg kind j) = s.regs.mshrs := by
      rw [dramMshrs, victimAllocates_of_blind fun _ => rfl]
      rfl
    rw [hregs, Machine.settle, comb_mshrs, if_pos halloc, hkept, assign_apply]
    split
    · simp only [missEntry, missCycle, BitVec.toNat_ofNat]
      omega
    · exact Nat.le_succ_of_le (h.addr_le i)
  · rw [hregs, Machine.settle, comb_waitIdx]
    exact h.waitIdx

theorem step_responseCycle {entry : Mshr cfg} (hle : cfg.numMshrs ≤ 8)
    (h : Lap s j bound [entry]) (hj : j + 1 < cfg.numMshrs) :
    Lap (s.step (responseCycle cfg)) (j + 1) bound [] := by
  have hblind : (responseCycle cfg).Blind := fun _ => rfl
  have hacts : s.Acts (responseCycle cfg) := h.acts hblind rfl
  have hregs := Machine.step_regs_of_acts hacts
  have hmisses : misses s.regs (responseCycle cfg) = false := by
    rw [misses_of_blind hblind, readOrWrite]
    simp [responseCycle, Cycle.idle, Drive.idle, Inputs.idle, L2EntryPacket.zero]
  have halloc : ∀ e, MultiCoreL2Cache.missAllocates s.regs (responseCycle cfg) e = false := by
    intro e
    rw [MultiCoreL2Cache.missAllocates, hmisses, Bool.false_and, Bool.false_and]
  have hhead : (mshrAt s.regs.mshrs s.regs.waitIdx).valid = true :=
    h.queue.live_head_iff.mpr (List.cons_ne_nil _ _)
  have hqueue := comb_queue_of_alike (c := responseCycle cfg) (n := s.nets) hle h.queue
    (fun _ => hhead) (fun hresp => nomatch hresp)
  rw [joining, halloc, victimAllocates_of_blind hblind] at hqueue
  refine ⟨h.reachable.step fun _ => hhead, hacts.2, ?_, fun core => ?_, fun i => ?_, ?_,
    hregs ▸ hqueue⟩
  · rw [Machine.step_nets, Machine.settle, comb_mshrExists, hmisses, h.unmatched]
    rfl
  · rw [hregs, Machine.settle, comb_l2ExitPacket]
    dsimp only
    split
    · rw [exitAfter, hmisses, h.stall]
      rfl
    · exact h.stall core
  · rw [hregs, Machine.settle, comb_mshrs, halloc, if_neg Bool.false_ne_true, dramMshrs,
      victimAllocates_of_blind hblind, if_neg Bool.false_ne_true, retiredMshrs_addr]
    exact h.addr_le i
  · have hnext : nextWaitIdx s.regs (responseCycle cfg) = advance cfg.numMshrs s.regs.waitIdx := rfl
    rw [hregs, Machine.settle, comb_waitIdx, hnext, advance_toNat hle cfg.numMshrs_pos, h.waitIdx]
    exact Nat.mod_eq_of_lt hj

end Lap

theorem exists_lap (hle : cfg.numMshrs ≤ 8) {j : Nat} (hj : j < cfg.numMshrs) :
    ∃ s : Machine cfg, Lap s j j [] := by
  induction j with
  | zero => exact ⟨_, Lap.start cfg⟩
  | succ j ih =>
      obtain ⟨s, h⟩ := ih (by omega)
      obtain ⟨entry, h'⟩ := h.step_missCycle hle (by omega) .read (.inl rfl)
      exact ⟨_, h'.step_responseCycle hle hj⟩

/-- **The ring works in every reachable state of the configurations that wrap alike everywhere, and
of no other.** -/
theorem reachable_intact_iff (hle : cfg.numMshrs ≤ 8) :
    (∀ s : Machine cfg, Reachable s → RingIntact s.regs) ↔
      cfg.ways = cfg.numMshrs ∨ (cfg.numMshrs = 8 ∧ 8 ≤ cfg.ways) := by
  constructor
  · intro hintact
    refine (advance_eq_iff cfg.numMshrs_pos cfg.ways_pos hle).mp fun idx hidx => ?_
    obtain ⟨s, h⟩ := exists_lap hle hidx
    obtain ⟨entry, h'⟩ := h.step_missCycle hle (by omega) .write (.inr rfl)
    let c : Cycle cfg := { Cycle.idle cfg with bPacket := { bValid := true, bResp := false } }
    have hacts := h'.acts (c := c) (fun _ => rfl) rfl
    have hhead := h'.queue.live_head_iff.mpr (List.cons_ne_nil _ _)
    have hnext := hintact _ (h'.reachable.step (c := c) fun _ => hhead)
    have halike := (step_ringIntact_iff hle (hintact _ h'.reachable) fun _ => hhead).mp hnext
      ⟨hacts, rfl, rfl⟩
    rwa [WrapsAlike, BitVec.eq_of_toNat_eq h'.waitIdx] at halike
  · exact fun halike s h => h.ringIntact hle halike

end MultiCoreL2Cache
