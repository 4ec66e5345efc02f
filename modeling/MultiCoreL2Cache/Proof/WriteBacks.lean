import MultiCoreL2Cache.Proof.Blind
import MultiCoreL2Cache.Proof.DramRequests

/-!
# What is written to DRAM

`write_req` marks an MSHR whose line goes to DRAM. An evicted dirty line needs that. The miss of a
WRITE sets it as well, where the line has to be fetched, and what it then sends is the data that the
last user of the slot left there. Without such a miss, whatever is written to DRAM is a line that a
refill evicted.
-/

namespace MultiCoreL2Cache

open Packed

variable {cfg : Config} {r : Regs cfg} {c : Cycle cfg} {s : Machine cfg} {o : Origins cfg}

/-- The MSHR at `wait_idx` after cycle `k` was filled by an earlier refill with the line `addr`, `data`
that this refill evicted, and has kept it since. -/
def HeadEvicted (s : Machine cfg) (input : Nat → Cycle cfg) (k : Nat) (addr : Addr)
    (data : CacheLine) : Prop :=
  ∃ i : Fin cfg.numMshrs, i.val = (s.run input (k + 1)).regs.waitIdx.toNat ∧
    ∃ j < k, Evicts (s.run input j) (input j) i addr data ∧
      ∀ l, j < l → l ≤ k → (s.run input l).regs.mshrs i = (s.run input k).regs.mshrs i

/-- What cycle `k` loads in `aw_packet` and `w_packet` is the address and the data captured when a
refill evicted a dirty line. In all other cycles they keep what they carry. -/
structure WritesVictims (s : Machine cfg) (input : Nat → Cycle cfg) (k : Nat) : Prop where
  addr : LoadsWriteAddr (s.run input k) (input k) → ∃ addr data, HeadEvicted s input k addr data ∧
    (s.run input (k + 1)).regs.awPacket = { awAddr := addr, awValid := true, awProt := 0 }
  data : LoadsWriteLine (s.run input k) (input k) → ∃ addr data, HeadEvicted s input k addr data ∧
    (s.run input (k + 1)).regs.wPacket =
      { wData := data, wValid := true, wStrb := BitVec.allOnes 64 }
  addrKept : (input k).reset = false → ¬LoadsWriteAddr (s.run input k) (input k) →
    (s.run input (k + 1)).regs.awPacket = (s.run input k).regs.awPacket
  dataKept : (input k).reset = false → ¬LoadsWriteLine (s.run input k) (input k) →
    (s.run input (k + 1)).regs.wPacket = (s.run input k).regs.wPacket

def WriteMissAllocates (s : Machine cfg) (c : Cycle cfg) : Prop :=
  s.Acts c ∧ c.l2EntryPacket.reqType = .write ∧ missAllocates s.regs c s.nets.mshrExists = true

instance (s : Machine cfg) (c : Cycle cfg) : Decidable (WriteMissAllocates s c) := instDecidableAnd

def Origins.ReadMisses (o : Origins cfg) : Prop :=
  ∀ i request, o i = some (.miss request) → request.reqType = .read

theorem readMisses_assign (h : o.ReadMisses) {i : Nat} {origin : Origin cfg}
    (hread : ∀ request, origin = .miss request → request.reqType = .read) :
    Origins.ReadMisses (assign o i fun _ => some origin) := by
  intro j request horigin
  rw [assign_apply] at horigin
  by_cases hj : j.val = i
  · rw [if_pos hj] at horigin
    exact hread request (Option.some.inj horigin)
  · rw [if_neg hj] at horigin
    exact h j request horigin

theorem readMisses_step (h : o.ReadMisses) (hmiss : ¬WriteMissAllocates s c) :
    (o.step s c).ReadMisses := by
  unfold Origins.step
  by_cases hreset : c.reset = true
  · rw [if_pos hreset]
    intro i request horigin
    cases horigin
  · rw [if_neg hreset]
    by_cases hacts : s.Acts c
    · rw [if_pos hacts]
      by_cases halloc : missAllocates s.regs c s.nets.mshrExists = true
      · rw [if_pos halloc]
        refine readMisses_assign h fun request hrequest => ?_
        rw [← Origin.miss.inj hrequest]
        rcases reqType_of_missAllocates halloc with hread | hwrite
        · exact hread
        · exact absurd ⟨hacts, hwrite, halloc⟩ hmiss
      · rw [if_neg halloc]
        split
        · refine readMisses_assign h fun request hrequest => ?_
          cases hrequest
        · exact h
    · rw [if_neg hacts]
      exact h

theorem run_readMisses (input : Nat → Cycle cfg) {k : Nat}
    (hmiss : ∀ j < k, ¬WriteMissAllocates (s.run input j) (input j)) :
    (Origins.run s input k).ReadMisses :=
  Clocked.history_invariant Origins.step _ (fun _ o => o.ReadMisses)
    (fun s _ c => ¬WriteMissAllocates s c) (fun _ _ horigin => by cases horigin)
    (fun _ _ _ => readMisses_step) hmiss

theorem headEvicted_of_issuesWrite {input : Nat → Cycle cfg} {k : Nat}
    (htraced : Traced (s.run input k).regs.mshrs (Origins.run s input k))
    (hread : (Origins.run s input k).ReadMisses) (hacts : (s.run input k).Acts (input k))
    (hissue : issuesWrite (s.run input k).regs (input k) = true) :
    HeadEvicted s input k
      (mshrAt (s.run input k).regs.mshrs (nextWaitIdx (s.run input k).regs (input k))).addr
      (mshrAt (s.run input k).regs.mshrs (nextWaitIdx (s.run input k).regs (input k))).data := by
  have hwait : (s.run input (k + 1)).regs.waitIdx = nextWaitIdx (s.run input k).regs (input k) :=
    (congrArg Regs.waitIdx (Machine.step_regs_of_acts hacts)).trans (comb_waitIdx _ _ _)
  unfold issuesWrite at hissue
  simp only [Bool.and_eq_true] at hissue
  obtain ⟨hvalid, hwrite⟩ := hissue
  have hlt := lt_of_mshrAt_valid hvalid
  rw [mshrAt_of_lt _ hlt] at hvalid hwrite ⊢
  obtain ⟨origin, horigin, hfields⟩ := htraced _ hvalid
  cases origin with
  | miss request =>
      obtain ⟨-, -, hreq⟩ := hfields
      rw [hwrite, hread _ request horigin] at hreq
      cases hreq
  | victim addr data =>
      rw [hfields.1, hfields.2.1]
      exact ⟨_, congrArg BitVec.toNat hwait.symm, run_origin_kept input k horigin hvalid⟩

theorem writesVictims_of_readMisses {input : Nat → Cycle cfg} {k : Nat}
    (htraced : Traced (s.run input k).regs.mshrs (Origins.run s input k))
    (hread : (Origins.run s input k).ReadMisses) : WritesVictims s input k where
  addr hload := by
    have hissue := ((Bool.and_eq_true _ _).mp hload.2).1
    refine ⟨_, _, headEvicted_of_issuesWrite htraced hread hload.1 hissue, ?_⟩
    exact (congrArg Regs.awPacket (Machine.step_regs_of_acts hload.1)).trans
      ((comb_awPacket _ _ _).trans (if_pos hload.2))
  data hload := by
    have hissue := ((Bool.and_eq_true _ _).mp hload.2).1
    refine ⟨_, _, headEvicted_of_issuesWrite htraced hread hload.1 hissue, ?_⟩
    exact (congrArg Regs.wPacket (Machine.step_regs_of_acts hload.1)).trans
      ((comb_wPacket _ _ _).trans (if_pos hload.2))
  addrKept := step_awPacket
  dataKept := step_wPacket

/-- **Only evicted dirty lines are written to DRAM, as long as no WRITE misses.** -/
theorem dram_writes_victims (s : Machine cfg) (hreset : s.AfterReset) (input : Nat → Cycle cfg)
    (k : Nat) (hmiss : ∀ j < k, ¬WriteMissAllocates (s.run input j) (input j)) :
    WritesVictims s input k :=
  writesVictims_of_readMisses (run_traced hreset input k) (run_readMisses input hmiss)

/-- A READ whose refill evicts a dirty line, and the write-back of that line. -/
def evictionCycles : Nat → Cycle .shipped
  | 0 => { Cycle.idle .shipped with toDrive := .request .read 0x40 1 }
  | 1 => { Cycle.idle .shipped with
      toDrive := { Drive.response .shipped 7#512 with
        snoopResp := fun core => ⟨true, 0x9040, 0#512, core⟩ }
      readMeta := fun _ => ⟨true, true, 1, .shared, 0x9040⟩
      readData := fun _ => 5#512 }
  | _ + 2 => { Cycle.idle .shipped with awReady := true, wReady := true }

theorem eviction_writesVictims : WritesVictims (.fresh .shipped) evictionCycles 2 :=
  dram_writes_victims _ (Machine.fresh_afterReset _) evictionCycles 2 (by decide +kernel)

/-- The miss of a WRITE, which the DRAM is then ready to take an address for. -/
def writeMiss : Nat → Drive .shipped
  | 0 => .request .write 0x40 0
  | _ + 1 => { Drive.idle .shipped with awReady := true }

theorem dram_writes_miss :
    ¬∀ (s : System .shipped) (input : Nat → Drive .shipped) (k : Nat), s.AfterReset →
      WritesVictims s.toMachine (s.cycles input) k := by
  intro hclaim
  have hwrites := hclaim (.fresh _) writeMiss 1 ⟨rfl, rfl⟩
  obtain ⟨addr, data, ⟨i, -, j, hj, hevicts, -⟩, -⟩ := hwrites.addr (by decide +kernel)
  obtain rfl : j = 0 := by omega
  -- no response has come that could have evicted anything
  have hresponds := rValid_of_victimAllocates hevicts.victim
  cases hresponds

end MultiCoreL2Cache
