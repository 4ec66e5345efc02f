import MultiCoreL2Cache.Proof.CombEffects

/-!
# Two allocations in one cycle

A refill that evicts a dirty line and a miss both take the slot at the old `free_idx`. When they come
in one cycle the miss is written over the write-back.
-/

namespace MultiCoreL2Cache

open Packed

variable {cfg : Config} {c : Cycle cfg} {s : Machine cfg}

def TwoFree (r : Regs cfg) : Prop :=
  ∃ i j, i ≠ j ∧ (r.mshrs i).valid = false ∧ (r.mshrs j).valid = false

instance (r : Regs cfg) : Decidable (TwoFree r) := inferInstanceAs (Decidable (∃ _ _, _))

structure BothAllocate (s : Machine cfg) (c : Cycle cfg) : Prop where
  acts : s.Acts c
  free : TwoFree s.regs
  victim : victimAllocates s.regs c = true
  miss : missAllocates s.regs c s.nets.mshrExists = true

def Mshr.WritesBack (entry : Mshr cfg) (addr : Addr) (data : CacheLine) : Prop :=
  entry.valid = true ∧ entry.writeReq = true ∧ entry.addr = addr ∧ entry.data = data

instance (entry : Mshr cfg) (addr : Addr) (data : CacheLine) :
    Decidable (entry.WritesBack addr data) := instDecidableAnd

def Mshr.Fetches (entry : Mshr cfg) (request : L2EntryPacket cfg) : Prop :=
  entry.valid = true ∧ entry.addr = request.targetAddr ∧ entry.coreId = request.coreId ∧
    entry.writeReq = (request.reqType == .write)

/-- After the clock edge the write-back and the miss are in two slots. -/
structure BothSurvive (s : Machine cfg) (c : Cycle cfg) : Prop where
  entries : ∃ i j, i ≠ j ∧
    ((s.step c).regs.mshrs i).WritesBack (victimEntry s.regs c).addr (victimEntry s.regs c).data ∧
    ((s.step c).regs.mshrs j).Fetches c.l2EntryPacket
  freeIdx : (s.step c).regs.freeIdx =
    advance cfg.numMshrs (advance cfg.numMshrs s.regs.freeIdx)

theorem advance_ne_self {m : Nat} (hm : 2 ≤ m) {idx : BitVec 3} (hidx : idx.toNat < m) :
    advance m idx ≠ idx := by
  intro heq
  have hnat : (idx.toNat + 1) % m % 8 = idx.toNat := by
    have hval := congrArg BitVec.toNat heq
    rwa [advance, BitVec.toNat_ofNat] at hval
  have hbits := idx.isLt
  by_cases hwrap : idx.toNat + 1 = m
  · rw [hwrap, Nat.mod_self] at hnat
    omega
  · rw [Nat.mod_eq_of_lt (by omega : idx.toNat + 1 < m)] at hnat
    omega

namespace BothAllocate

theorem step_freeIdx (h : BothAllocate s c) :
    (s.step c).regs.freeIdx = advance cfg.numMshrs s.regs.freeIdx := by
  rw [Machine.step_regs_of_acts h.acts, Machine.settle, comb_freeIdx, h.miss, Bool.true_or, if_pos rfl]

/-- The slot at `free_idx` holds the miss; of the write-back only the data is left in it. -/
theorem step_mshrs (h : BothAllocate s c) (i : Fin cfg.numMshrs) :
    (s.step c).regs.mshrs i =
      if i.val = s.regs.freeIdx.toNat then missEntry c (victimEntry s.regs c)
      else retiredMshrs s.regs c i := by
  rw [Machine.step_regs_of_acts h.acts, Machine.settle, comb_mshrs, if_pos h.miss, assign_apply,
    dramMshrs, if_pos h.victim, assign_apply]
  split <;> rfl

theorem two_le_numMshrs (h : BothAllocate s c) : 2 ≤ cfg.numMshrs := by
  obtain ⟨i, j, hne, -⟩ := h.free
  have := Fin.val_ne_of_ne hne
  omega

end BothAllocate

/-- **A write-back and a miss allocated in one cycle never both survive.** -/
theorem double_allocation_loses (s : Machine cfg) (c : Cycle cfg) (h : BothAllocate s c) :
    ¬BothSurvive s c := by
  intro hboth
  have hadvance := hboth.freeIdx
  rw [h.step_freeIdx] at hadvance
  exact advance_ne_self h.two_le_numMshrs (advance_lt cfg.numMshrs_pos _) hadvance.symm

/-- In the first cycle a response evicts a dirty line while core 2 misses. -/
def refillAndMiss : Nat → Cycle .shipped
  | 0 => { Cycle.idle .shipped with
      toDrive := { Drive.response .shipped 7#512 with
        l2EntryPacket := ⟨.read, 0#512, 0x80, 2⟩
        snoopResp := fun core => ⟨true, 0x90040, 0#512, core⟩ }
      readMeta := fun _ => ⟨true, true, 1, .shared, 0x90040⟩
      readData := fun _ => 5#512 }
  | _ + 1 => .idle _

theorem refillAndMiss_bothAllocate :
    BothAllocate ((Machine.fresh .shipped).run refillAndMiss 0) (refillAndMiss 0) where
  acts := by decide +kernel
  free := ⟨⟨1, by decide⟩, ⟨2, by decide⟩, by decide, by decide +kernel, by decide +kernel⟩
  victim := by decide +kernel
  miss := by decide +kernel

theorem refillAndMiss_loses :
    ¬BothSurvive ((Machine.fresh .shipped).run refillAndMiss 0) (refillAndMiss 0) :=
  double_allocation_loses _ _ refillAndMiss_bothAllocate

/-- No slot holds the write-back: the one it was allocated in holds the miss. -/
theorem writeBack_overwritten :
    ¬∀ (cfg : Config) (s : Machine cfg) (input : Nat → Cycle cfg) (k : Nat), s.AfterReset →
      BothAllocate (s.run input k) (input k) → BothSurvive (s.run input k) (input k) := by
  intro hclaim
  have hboth := hclaim .shipped (.fresh _) refillAndMiss 0 (Machine.fresh_afterReset _)
    refillAndMiss_bothAllocate
  obtain ⟨i, -, -, hwritesBack, -⟩ := hboth.entries
  rw [refillAndMiss_bothAllocate.step_mshrs] at hwritesBack
  revert i
  decide +kernel

end MultiCoreL2Cache
