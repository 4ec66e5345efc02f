import MultiCoreL2Cache.Model.Bench
import MultiCoreL2Cache.Proof.Lockout
import MultiCoreL2Cache.Proof.MissLog

/-!
# The driver and the cache

`cache_driver` leaves every packet on the bus for two clock edges at least, and the cache takes what is
on the bus for a request at every edge. A transaction that misses is therefore requested again while it
is outstanding, finds its own address, and locks out all others.
-/

namespace MultiCoreL2Cache

variable {cfg : Config} {items : Nat → Option (CachePacket cfg)}

/-! ### The bus -/

def busAt (items : Nat → Option (CachePacket cfg)) (k : Nat) : DriverBus cfg :=
  Clocked.run DriverBus.step (.idle cfg) items k

/-- A packet stays for another edge, or has been there at the last one. -/
theorem bus_held (items : Nat → Option (CachePacket cfg)) (k : Nat) :
    (busAt items (k + 1)).l2EntryPacket = (busAt items k).l2EntryPacket ∨
      (busAt items k).l2EntryPacket = .zero cfg ∨
      ∃ j, k = j + 1 ∧ (busAt items j).l2EntryPacket = (busAt items k).l2EntryPacket := by
  have hstep : ∀ j, busAt items (j + 1) = (busAt items j).step (items j) := fun _ => rfl
  cases hdriver : (busAt items k).driver with
  | driving =>
      refine .inl ?_
      rw [hstep]
      simp [DriverBus.step, DriverBus.getNextItem, DriverBus.clockEdge, hdriver]
  | holds req =>
      -- an edge never leaves the driver with an item that it has not driven
      cases k with
      | zero => cases hdriver
      | succ j =>
          rw [hstep] at hdriver
          unfold DriverBus.step DriverBus.clockEdge at hdriver
          split at hdriver
          · rename_i hwaiting
            rw [hwaiting] at hdriver
            cases hdriver
          · cases hdriver
          · cases hdriver
  | waiting =>
      cases k with
      | zero => exact .inr (.inl rfl)
      | succ j =>
          refine .inr (.inr ⟨j, rfl, ?_⟩)
          rw [hstep] at hdriver ⊢
          cases hbefore : (busAt items j).driver <;> cases hitem : items j <;>
            simp [DriverBus.step, DriverBus.getNextItem, DriverBus.clockEdge, hbefore, hitem]
              at hdriver ⊢

/-! ### A packet that is sampled twice -/

section Twice

variable {s : Machine cfg} {c c' : Cycle cfg}

theorem readOrWrite_of_misses (h : misses s.regs c = true) : readOrWrite s.regs c = true := by
  unfold misses at h
  exact ((Bool.and_eq_true _ _).mp h).1

/-- A packet that asks for a line asks for it again unless its core is stalled meanwhile. -/
theorem misses_again_of_blind (hblind : c'.Blind) (hpacket : c'.l2EntryPacket = c.l2EntryPacket)
    {r r' : Regs cfg} (hkind : readOrWrite r c = true)
    (hstall : (r'.l2ExitPacket c.l2EntryPacket.coreId).stall = false) : misses r' c' = true := by
  rw [misses_of_blind hblind]
  unfold readOrWrite stalled at hkind ⊢
  rw [hpacket, hstall]
  simp only [Bool.and_eq_true] at hkind
  rw [hkind.2]
  rfl

theorem findsMatch_of_allocates (hacts : s.Acts c) (hfree : s.regs.freeIdx.toNat < cfg.numMshrs)
    (hblind : c'.Blind) (hpacket : c'.l2EntryPacket = c.l2EntryPacket)
    (halloc : missAllocates s.regs c s.nets.mshrExists = true) : FindsMatch (s.step c) c' := by
  have hmisses : misses s.regs c = true := (missAllocates_eq_true.mp halloc).1
  have hmiss : MissStep s c := ⟨hacts, hmisses⟩
  have hstall : ((s.step c).regs.l2ExitPacket c.l2EntryPacket.coreId).stall = false := by
    have hrefuses : refuses s.regs c s.nets.mshrExists = false := by simp [refuses, halloc]
    rw [step_stall hacts, stalled_of_misses hmisses, hrefuses, Bool.and_false, Bool.or_false]
  refine ⟨misses_again_of_blind hblind hpacket (readOrWrite_of_misses hmisses) hstall, ?_⟩
  obtain ⟨old, hentry⟩ := hmiss.mshrAt_freeIdx hfree halloc
  rw [mshrAt_of_lt _ hfree] at hentry
  refine decide_eq_true ⟨⟨_, hfree⟩, ?_⟩
  rw [hentry, hpacket]
  rfl

/-- A miss that gets an MSHR asks for it for the first time. -/
theorem not_allocates_again (hacts : s.Acts c) (hfree : s.regs.freeIdx.toNat < cfg.numMshrs)
    (hblind : c.Blind) (hblind' : c'.Blind) (hpacket : c'.l2EntryPacket = c.l2EntryPacket) :
    missAllocates (s.step c).regs c' (s.step c).nets.mshrExists = false := by
  by_contra hcontra
  have halloc' : missAllocates (s.step c).regs c' (s.step c).nets.mshrExists = true := by
    simpa using hcontra
  obtain ⟨hmisses', ⟨-, hnone⟩, -⟩ := missAllocates_eq_true.mp halloc'
  have hstall' : ((s.step c).regs.l2ExitPacket c.l2EntryPacket.coreId).stall = false := by
    rw [← hpacket]
    exact stalled_of_misses hmisses'
  rw [step_stall hacts, Bool.or_eq_false_iff, decide_eq_true rfl, Bool.true_and] at hstall'
  have hmisses : misses s.regs c = true :=
    misses_again_of_blind hblind hpacket.symm (readOrWrite_of_misses hmisses') (by
      rw [hpacket]
      exact hstall'.1)
  have halloc : missAllocates s.regs c s.nets.mshrExists = true := by
    have hrefuses := hstall'.2
    unfold refuses at hrefuses
    simpa [hmisses] using hrefuses
  have hmatch := (findsMatch_of_allocates hacts hfree hblind' hpacket halloc).2
  exact Bool.false_ne_true (hnone.symm.trans hmatch)

end Twice

/-! ### The whole run -/

/-- **The driver gets one MSHR for its whole test.** After the first miss that gets one, all others are
locked out, whatever the items are. -/
theorem driver_gets_one_mshr (s : System cfg) (hreset : s.AfterReset)
    (hwaiting : s.nets.waiting = false) (items : Nat → Option (CachePacket cfg))
    (input : Nat → Drive cfg) (hdriven : DrivenBy items input)
    (hrun : ∀ k, (input k).reset = false) {b k : Nat} (hlt : b < k)
    (halloc : missAllocates (s.toMachine.run (s.cycles input) b).regs (s.cycles input b)
      (s.toMachine.run (s.cycles input) b).nets.mshrExists = true) :
    LockedOut (s.toMachine.run (s.cycles input) k) (s.cycles input k) := by
  have hacts : ∀ j, (s.toMachine.run (s.cycles input) j).Acts (s.cycles input j) := by
    intro j
    refine ⟨hrun j, ?_⟩
    have hnets : (s.toMachine.run (s.cycles input) (j + 1)).nets =
        (s.run input (j + 1)).nets := by rw [← System.run_toMachine]
    exact (congrArg Nets.waiting hnets).trans ((run_waiting s input (j + 1)).trans hwaiting)
  have hfree : ∀ j, (s.toMachine.run (s.cycles input) j).regs.freeIdx.toNat < cfg.numMshrs :=
    fun j => run_freeIdx_lt hreset.1 (s.cycles input) j
  have hbus : ∀ j, (s.cycles input j).l2EntryPacket = (busAt items j).l2EntryPacket := hdriven
  rcases bus_held items b with hnext | hidle | ⟨j, rfl, hbefore⟩
  · have hpacket : (s.cycles input (b + 1)).l2EntryPacket = (s.cycles input b).l2EntryPacket := by
      rw [hbus, hbus, hnext]
    have hfinds := findsMatch_of_allocates (hacts b) (hfree b) (s.cycles_blind input (b + 1)) hpacket
      halloc
    rcases Nat.lt_or_eq_of_le (Nat.succ_le_of_lt hlt) with hlater | rfl
    · exact lockedOut_of_mshrExists (mshrExists_of_findsMatch hlater hfinds)
    · exact lockedOut_of_findsMatch hfinds
  · have hkind : (s.cycles input b).l2EntryPacket.reqType = .upgrade := by
      rw [hbus, hidle]
      rfl
    have hasks := readOrWrite_of_misses (missAllocates_eq_true.mp halloc).1
    unfold readOrWrite at hasks
    simp [hkind] at hasks
  · have hpacket : (s.cycles input (j + 1)).l2EntryPacket = (s.cycles input j).l2EntryPacket := by
      rw [hbus, hbus, hbefore]
    have hnone := not_allocates_again (hacts j) (hfree j) (s.cycles_blind input j)
      (s.cycles_blind input (j + 1)) hpacket
    exact absurd (hnone.symm.trans halloc) Bool.false_ne_true

/-- Two reads of different lines, as soon as the driver takes them. -/
def twoItems : Nat → Option (CachePacket .shipped)
  | 0 => some ⟨.read, 0x40, 1, 0#512⟩
  | 1 => some ⟨.read, 0x80, 2, 0#512⟩
  | 2 => some ⟨.read, 0x80, 2, 0#512⟩
  | _ + 3 => none

def twoItemsDriven : Nat → Drive .shipped := fun k =>
  { Drive.idle .shipped with l2EntryPacket := (busAt twoItems k).l2EntryPacket }

theorem twoItems_locked :
    LockedOut ((System.fresh .shipped).toMachine.run ((System.fresh .shipped).cycles twoItemsDriven) 3)
      ((System.fresh .shipped).cycles twoItemsDriven 3) :=
  driver_gets_one_mshr (.fresh .shipped) ⟨rfl, rfl⟩ rfl twoItems twoItemsDriven (fun _ => rfl)
    (fun _ => rfl) (show 1 < 3 by decide) (by decide +kernel)

end MultiCoreL2Cache
