import MultiCoreL2Cache.Proof.Blind
import MultiCoreL2Cache.Proof.Origins

/-!
# Reading a refilled line again

A refill is meant to leave its line in the data memory and a valid packet in the tag memory. The tag
memory has no room for the `valid` bit, so the next READ of the line misses like the first.
-/

namespace MultiCoreL2Cache

open Packed

variable {cfg : Config}

def SameLine (a b : Addr) : Prop := a.l2Tag = b.l2Tag ∧ a.l2SetIdx = b.l2SetIdx

instance (a b : Addr) : Decidable (SameLine a b) := instDecidableAnd

/-- The response of this cycle retires the MSHR of a READ miss of `addr` and brings `line`. -/
structure Refills (s : Machine cfg) (o : Origins cfg) (c : Cycle cfg) (addr : Addr)
    (line : CacheLine) : Prop where
  acts : s.Acts c
  responds : c.rPacket.rValid = true
  brings : c.rPacket.rData = line
  valid : (mshrAt s.regs.mshrs s.regs.waitIdx).valid = true
  origin : ∃ core data, o.at? s.regs.waitIdx = some (.miss ⟨.read, data, addr, core⟩)

/-- The cycle neither resets the memories nor refills the set of `addr` nor changes its line. -/
structure LeavesLine (s : Machine cfg) (c : Cycle cfg) (addr : Addr) : Prop where
  reset : c.reset = false
  refill : c.rPacket.rValid = true →
    (mshrAt s.regs.mshrs s.regs.waitIdx).addr.l2SetIdx ≠ addr.l2SetIdx
  request : c.l2EntryPacket.reqType = .read ∨ ¬SameLine c.l2EntryPacket.targetAddr addr

structure ReadAgain (s : Machine cfg) (input : Nat → Cycle cfg) (addr : Addr) (line : CacheLine)
    (b k : Nat) : Prop where
  aligned : addr.l2Offset = 0
  refills : Refills (s.run input b) (Origins.run s input b) (input b) addr line
  later : b < k
  leaves : ∀ j, b < j → j < k → LeavesLine (s.run input j) (input j) addr
  reset : (input k).reset = false
  unstalled : stalled (s.run input k).regs (input k) = false
  read : (input k).l2EntryPacket.reqType = .read
  target : (input k).l2EntryPacket.targetAddr = addr

/-- The READ hits in one way, which has `line`, and needs no MSHR. -/
def FoundAgain (s : Machine cfg) (c : Cycle cfg) (line : CacheLine) : Prop :=
  ∃ w, (∀ other, hit c other = true ↔ other = w) ∧ c.readData w = line ∧
    missAllocates s.regs c s.nets.mshrExists = false

theorem not_foundAgain_of_blind {s : Machine cfg} {c : Cycle cfg} (hblind : c.Blind)
    (line : CacheLine) : ¬FoundAgain s c line := by
  rintro ⟨w, hhit, -⟩
  have hw := (hhit w).mpr rfl
  rw [hit_of_blind hblind] at hw
  cases hw

/-- **A refilled line is never found again.** The READ misses as the first one did. -/
theorem refilled_line_missed (s : System cfg) (input : Nat → Drive cfg) (addr : Addr)
    (line : CacheLine) (b k : Nat)
    (h : ReadAgain s.toMachine (s.cycles input) addr line b k) :
    misses (s.toMachine.run (s.cycles input) k).regs (s.cycles input k) = true ∧
      ¬FoundAgain (s.toMachine.run (s.cycles input) k) (s.cycles input k) line := by
  have hblind := s.cycles_blind input k
  refine ⟨?_, not_foundAgain_of_blind hblind line⟩
  rw [misses_of_blind hblind]
  simp [readOrWrite, h.unstalled, h.read]

def readTwice : Nat → Drive .shipped
  | 0 => .request .read 0x40 1
  | 1 => .response _ 7#512
  | 2 => .request .read 0x40 1
  | _ + 3 => .idle _

theorem readTwice_readAgain :
    ReadAgain (System.fresh .shipped).toMachine ((System.fresh .shipped).cycles readTwice) 0x40
      7#512 1 2 where
  aligned := by decide
  refills := ⟨by decide +kernel, by decide +kernel, by decide +kernel, by decide +kernel,
    1, 0#512, by decide +kernel⟩
  later := by decide
  leaves j hlt hgt := by omega
  reset := by decide +kernel
  unstalled := by decide +kernel
  read := by decide +kernel
  target := by decide +kernel

theorem readTwice_missed :
    misses ((System.fresh .shipped).toMachine.run
        ((System.fresh .shipped).cycles readTwice) 2).regs
        ((System.fresh .shipped).cycles readTwice 2) = true ∧
      ¬FoundAgain ((System.fresh .shipped).toMachine.run
        ((System.fresh .shipped).cycles readTwice) 2) ((System.fresh .shipped).cycles readTwice 2)
        7#512 :=
  refilled_line_missed _ readTwice 0x40 7#512 1 2 readTwice_readAgain

theorem refill_not_found_again :
    ¬∀ (s : System .shipped) (input : Nat → Drive .shipped) (addr : Addr) (line : CacheLine)
      (b k : Nat), s.AfterReset → ReadAgain s.toMachine (s.cycles input) addr line b k →
      FoundAgain (s.toMachine.run (s.cycles input) k) (s.cycles input k) line := by
  intro hclaim
  exact not_foundAgain_of_blind (System.cycles_blind _ readTwice 2) 7#512
    (hclaim (.fresh _) readTwice 0x40 7#512 1 2 ⟨rfl, rfl⟩ readTwice_readAgain)

end MultiCoreL2Cache
