import MultiCoreL2Cache.Proof.ErasedMemory
import MultiCoreL2Cache.Proof.Stalls

/-!
# What the cache listens to

With its memories connected the cache takes notice of READs, WRITEs, the ready bits and the valid bits
of the responses. UPGRADEs, EVICTs, the lines that requests and responses carry, the response codes and
everything the L1 caches answer to snoops leave no trace in any register.
-/

namespace MultiCoreL2Cache

open Packed

variable {cfg : Config} {r : Regs cfg} {d d' : Drive cfg} {n n' : Nets cfg}

def Drive.AsksLine (d : Drive cfg) : Prop :=
  d.l2EntryPacket.reqType = .read ∨ d.l2EntryPacket.reqType = .write

/-- The same inputs as far as the cache listens. -/
structure SoundAlike (d d' : Drive cfg) : Prop where
  reset : d.reset = d'.reset
  arReady : d.arReady = d'.arReady
  awReady : d.awReady = d'.awReady
  wReady : d.wReady = d'.wReady
  rValid : d.rPacket.rValid = d'.rPacket.rValid
  bValid : d.bPacket.bValid = d'.bPacket.bValid
  asks : d.AsksLine ↔ d'.AsksLine
  request : d.AsksLine → d.l2EntryPacket.toMiss = d'.l2EntryPacket.toMiss

theorem misses_bare_iff (r : Regs cfg) (d : Drive cfg) :
    misses r d.bare = true ↔
      (r.l2ExitPacket d.l2EntryPacket.coreId).stall = false ∧ d.AsksLine := by
  rw [misses_of_blind d.bare_blind]
  unfold readOrWrite
  rw [Bool.and_eq_true, Bool.not_eq_true', decide_eq_true_eq]
  rfl

/-- What a miss writes in its MSHR. -/
theorem missEntry_eq (c : Cycle cfg) (old : Mshr cfg) :
    missEntry c old = { c.l2EntryPacket.toMiss.entry true with data := old.data } := rfl

namespace SoundAlike

theorem misses (h : SoundAlike d d') : misses r d.bare = MultiCoreL2Cache.misses r d'.bare := by
  rw [Bool.eq_iff_iff, misses_bare_iff, misses_bare_iff, ← h.asks]
  refine and_congr_left fun hasks => ?_
  have hcore : d.l2EntryPacket.coreId = d'.l2EntryPacket.coreId :=
    congrArg Miss.coreId (h.request hasks)
  rw [hcore]

theorem request_of_misses (h : SoundAlike d d') (hmiss : MultiCoreL2Cache.misses r d.bare = true) :
    d.l2EntryPacket.toMiss = d'.l2EntryPacket.toMiss :=
  h.request ((misses_bare_iff r d).mp hmiss).2

theorem mshrExists (h : SoundAlike d d') (hexists : n.mshrExists = n'.mshrExists) :
    (n.mshrExists || (MultiCoreL2Cache.misses r d.bare && mshrMatch r d.bare)) =
      (n'.mshrExists || (MultiCoreL2Cache.misses r d'.bare && mshrMatch r d'.bare)) := by
  rw [← h.misses, hexists]
  cases hmiss : MultiCoreL2Cache.misses r d.bare with
  | false => rfl
  | true =>
      have haddr : d.bare.l2EntryPacket.targetAddr = d'.bare.l2EntryPacket.targetAddr :=
        congrArg Miss.addr (h.request_of_misses hmiss)
      unfold mshrMatch
      rw [haddr]

theorem missAllocates (h : SoundAlike d d') (exists' : Bool) :
    missAllocates r d.bare exists' = MultiCoreL2Cache.missAllocates r d'.bare exists' := by
  unfold MultiCoreL2Cache.missAllocates
  rw [← h.misses]
  cases hmiss : MultiCoreL2Cache.misses r d.bare with
  | false => rfl
  | true =>
      have haddr : d.bare.l2EntryPacket.targetAddr = d'.bare.l2EntryPacket.targetAddr :=
        congrArg Miss.addr (h.request_of_misses hmiss)
      unfold mshrMatch
      rw [haddr]

theorem stall (h : SoundAlike d d') (hexists : n.mshrExists = n'.mshrExists) (core : cfg.Core) :
    ((comb r d.bare n).next.l2ExitPacket core).stall =
      ((comb r d'.bare n').next.l2ExitPacket core).stall := by
  rw [comb_stall, comb_stall]
  unfold refuses
  rw [← h.missAllocates, ← h.misses, hexists]
  cases hmiss : MultiCoreL2Cache.misses r d.bare with
  | false => simp
  | true =>
      have hcore : d.bare.l2EntryPacket.coreId = d'.bare.l2EntryPacket.coreId :=
        congrArg Miss.coreId (h.request_of_misses hmiss)
      rw [hcore]

theorem mshrs (h : SoundAlike d d') (hexists : n.mshrExists = n'.mshrExists) :
    (comb r d.bare n).next.mshrs = (comb r d'.bare n').next.mshrs := by
  have hdram : dramMshrs r d.bare = dramMshrs r d'.bare := by
    have hr : d.bare.rPacket.rValid = d'.bare.rPacket.rValid := h.rValid
    have hb : d.bare.bPacket.bValid = d'.bare.bPacket.bValid := h.bValid
    have hnone : ¬false = true := Bool.false_ne_true
    rw [dramMshrs, dramMshrs, victimAllocates_of_blind d.bare_blind,
      victimAllocates_of_blind d'.bare_blind, if_neg hnone, if_neg hnone, retiredMshrs,
      retiredMshrs, hr, hb]
  rw [comb_mshrs, comb_mshrs, ← h.missAllocates, ← hexists, hdram]
  split
  · rename_i halloc
    have hmiss := (missAllocates_eq_true.mp halloc).1
    have hrequest : d.bare.l2EntryPacket.toMiss = d'.bare.l2EntryPacket.toMiss :=
      h.request_of_misses hmiss
    have hentry : missEntry d.bare = missEntry d'.bare := by
      funext old
      rw [missEntry_eq, missEntry_eq, hrequest]
    rw [hentry]
  · rfl

theorem next (h : SoundAlike d d') (hexists : n.mshrExists = n'.mshrExists) {A : Addr → Prop}
    (hquiet : CarriesNothing A r) : (comb r d.bare n).next = (comb r d'.bare n').next := by
  have hr : d.bare.rPacket.rValid = d'.bare.rPacket.rValid := h.rValid
  have hb : d.bare.bPacket.bValid = d'.bare.bPacket.bValid := h.bValid
  have har : d.bare.arReady = d'.bare.arReady := h.arReady
  have haw : d.bare.awReady = d'.bare.awReady := h.awReady
  have hw : d.bare.wReady = d'.bare.wReady := h.wReady
  have hwait : nextWaitIdx r d.bare = nextWaitIdx r d'.bare := by
    unfold nextWaitIdx
    rw [hr, hb]
  ext1
  · funext core
    exact (comb_exit hquiet core).trans
      ((congrArg _ (h.stall hexists core)).trans (comb_exit hquiet core).symm)
  · funext core
    simp [comb_snoopReq, victimTargets, hitTargets, victimActive_of_blind d.bare_blind,
      hitActive_of_blind d.bare_blind, victimActive_of_blind d'.bare_blind,
      hitActive_of_blind d'.bare_blind]
  · exact h.mshrs hexists
  · rw [comb_freeIdx, comb_freeIdx, victimAllocates_of_blind d.bare_blind,
      victimAllocates_of_blind d'.bare_blind, h.missAllocates, hexists]
  · rw [comb_waitIdx, comb_waitIdx, hwait]
  · rw [comb_awPacket, comb_awPacket, issuesWrite, issuesWrite, hwait, haw]
  · rw [comb_wPacket, comb_wPacket, issuesWrite, issuesWrite, hwait, hw]
  · rw [comb_arPacket, comb_arPacket, issuesRead, issuesRead, hwait, har]
  · rw [comb_lrus, comb_lrus, hr]

end SoundAlike

/-- **The cache listens to misses only.** -/
theorem only_misses_matter (s : System cfg) (hreset : s.AfterReset)
    (input input' : Nat → Drive cfg) (h : ∀ k, SoundAlike (input k) (input' k)) (k : Nat) :
    (s.run input k).regs = (s.run input' k).regs := by
  have hwaiting : ∀ k, (s.run input k).nets.waiting = (s.run input' k).nets.waiting := fun k =>
    (run_waiting s input k).trans (run_waiting s input' k).symm
  have hall : (s.run input k).regs = (s.run input' k).regs ∧
      (s.run input k).nets.mshrExists = (s.run input' k).nets.mshrExists := by
    induction k with
    | zero => exact ⟨rfl, rfl⟩
    | succ k ih =>
        obtain ⟨hregs, hexists⟩ := ih
        have hnets : ∀ input : Nat → Drive cfg,
            (s.run input (k + 1)).nets = (s.run input k).settled (input k) := fun _ => rfl
        have hstep : ∀ input : Nat → Drive cfg, (s.run input (k + 1)).regs =
            clocked (input k).reset (s.run input k).regs ((s.run input k).settled (input k)) :=
          fun _ => rfl
        refine ⟨?_, ?_⟩
        · rw [hstep, hstep, ← (h k).reset]
          unfold clocked
          rw [settled_waiting, settled_waiting, ← hwaiting k, System.settled_next,
            System.settled_next, ← hregs, (h k).next hexists (run_carriesNothing hreset k)]
        · rw [hnets, hnets, settled_mshrExists, settled_mshrExists, ← hregs]
          exact (h k).mshrExists hexists
  exact hall.1

/-- Core 1 reads a line. Then core 2 evicts another one, and all L1 caches answer snoops. -/
def readThenEvict : Nat → Drive .shipped
  | 0 => .request .read 0x40 1
  | _ + 1 => { Drive.request .evict 0x80 2 with snoopResp := fun core => ⟨true, 0x80, 7#512, core⟩ }

def readThenIdle : Nat → Drive .shipped
  | 0 => .request .read 0x40 1
  | _ + 1 => .idle _

theorem readThenEvict_soundsIdle (k : Nat) : SoundAlike (readThenEvict k) (readThenIdle k) := by
  cases k with
  | zero => exact ⟨rfl, rfl, rfl, rfl, rfl, rfl, Iff.rfl, fun _ => rfl⟩
  | succ k =>
      have hevict : ¬(readThenEvict (k + 1)).AsksLine := by
        rintro (h | h) <;> cases h
      have hidle : ¬(readThenIdle (k + 1)).AsksLine := by
        rintro (h | h) <;> cases h
      exact ⟨rfl, rfl, rfl, rfl, rfl, rfl, iff_of_false hevict hidle, fun h => absurd h hevict⟩

theorem readThenEvict_unheard :
    ((System.fresh .shipped).run readThenEvict 9).regs =
      ((System.fresh .shipped).run readThenIdle 9).regs :=
  only_misses_matter _ ⟨rfl, rfl⟩ readThenEvict readThenIdle readThenEvict_soundsIdle 9

end MultiCoreL2Cache
