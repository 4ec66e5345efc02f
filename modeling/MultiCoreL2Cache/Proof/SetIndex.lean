import MultiCoreL2Cache.Model.System
import MultiCoreL2Cache.Proof.Slots

/-!
# Set indices

The address has ten bits for the set and the sizes give 1000 sets. An index reaches the counters and
the memories from the request that hits and from the MSHR that is refilled, in that cycle or, where a
tag memory is accessed without an address of its own, in the last one that latched an address there. All
are in range as long as no address in the last 24 sets is looked up or gets an MSHR.
-/

namespace MultiCoreL2Cache

open Packed

variable {cfg : Config} {r : Regs cfg} {c : Cycle cfg} {s : Machine cfg}

theorem numSets_shipped : Config.shipped.numSets = 1000 := by decide

def InSets (cfg : Config) (addr : Addr) : Prop := addr.l2SetIdx.toNat < cfg.numSets

instance (cfg : Config) (addr : Addr) : Decidable (InSets cfg addr) :=
  inferInstanceAs (Decidable (_ < _))

/-- Every index into the counters, and every address of a memory that the cycle enables. -/
structure IndexesInRange (s : Machine cfg) (c : Cycle cfg) : Prop where
  lrus : c.rPacket.rValid = true →
    (mshrAt s.regs.mshrs s.regs.waitIdx).addr.l2SetIdx.toNat < cfg.numSets
  dataRead : ∀ w, (s.settle c).readEn w = true → ((s.settle c).readAddr w).toNat < cfg.numSets
  dataWrite : ∀ w, (s.settle c).writeEn w = true → ((s.settle c).writeAddr w).toNat < cfg.numSets
  tagRead : ∀ w, (s.settle c).readMetaEn w = true →
    ((s.settle c).readMetaAddr w).toNat < cfg.numSets
  tagWrite : ∀ w, (s.settle c).writeMetaEn w = true →
    ((s.settle c).writeMetaAddr w).toNat < cfg.numSets

/-- The sets latched for the tag memories. UPGRADE, EVICT and a WRITE hit write in the one, a refill
reads in the other. -/
def LatchesInSets (n : Nets cfg) : Prop :=
  ∀ w, (n.readMetaAddr w).toNat < cfg.numSets ∧ (n.writeMetaAddr w).toNat < cfg.numSets

instance (n : Nets cfg) : Decidable (LatchesInSets n) := inferInstanceAs (Decidable (∀ _, _))

/-- The addresses that the cycle looks up or puts in an MSHR have a set. -/
structure NamesSets (s : Machine cfg) (c : Cycle cfg) : Prop where
  hit : looksUp s.regs c = true → InSets cfg c.l2EntryPacket.targetAddr
  miss : s.Acts c → missAllocates s.regs c s.nets.mshrExists = true →
    InSets cfg c.l2EntryPacket.targetAddr
  victim : s.Acts c → victimAllocates s.regs c = true → InSets cfg (victimEntry s.regs c).addr

def MshrsInSets (mshrs : Fin cfg.numMshrs → Mshr cfg) : Prop := ∀ i, InSets cfg (mshrs i).addr

theorem zero_inSets (hsets : 0 < cfg.numSets) : InSets cfg 0 := by
  have hzero : Addr.l2SetIdx 0 = 0 := by decide
  rw [InSets, hzero]
  exact hsets

theorem setWidth_lt {addr : Addr} (h : InSets cfg addr) (width : Nat) :
    (addr.l2SetIdx.setWidth width).toNat < cfg.numSets := by
  rw [BitVec.toNat_setWidth]
  exact (Nat.mod_le _ _).trans_lt h

theorem mshrsInSets_acts (h : MshrsInSets s.regs.mshrs) (hacts : s.Acts c) (hnames : NamesSets s c) :
    MshrsInSets (s.settle c).next.mshrs :=
  comb_mshrs_forall (fun entry => InSets cfg entry.addr) h (fun _ hentry => hentry)
    (hnames.victim hacts) fun hmiss _ _ => hnames.miss hacts hmiss

theorem head_inSets (hsets : 0 < cfg.numSets) (h : MshrsInSets r.mshrs) (idx : BitVec 3) :
    InSets cfg (mshrAt r.mshrs idx).addr := by
  by_cases hlt : idx.toNat < cfg.numMshrs
  · rw [mshrAt_of_lt _ hlt]
    exact h _
  · rw [mshrAt_of_not_lt _ hlt]
    exact zero_inSets hsets

theorem latchesInSets_settle (hhead : InSets cfg (mshrAt s.regs.mshrs s.regs.waitIdx).addr)
    (hlatches : LatchesInSets s.nets) (hnames : NamesSets s c) : LatchesInSets (s.settle c) := by
  intro w
  rw [Machine.settle, comb_readMetaAddr, comb_writeMetaAddr]
  dsimp only
  constructor
  · by_cases hlook : (looksUp s.regs c && decide (w = hitWay c)) = true
    · rw [if_pos hlook]
      exact setWidth_lt (hnames.hit ((Bool.and_eq_true _ _).mp hlook).1) _
    · rw [if_neg hlook]
      exact (hlatches w).1
  · by_cases hrefill : (c.rPacket.rValid && decide (w = lruWay s.regs)) = true
    · rw [if_pos hrefill]
      exact setWidth_lt hhead _
    · rw [if_neg hrefill]
      exact (hlatches w).2

theorem indexesInRange_of_latches (hhead : InSets cfg (mshrAt s.regs.mshrs s.regs.waitIdx).addr)
    (hlatches : LatchesInSets (s.settle c)) (hnames : NamesSets s c) : IndexesInRange s c where
  lrus _ := hhead
  dataRead w hen := by
    rw [Machine.settle, comb_readEn] at hen
    rw [Machine.settle, comb_readAddr]
    dsimp only at hen ⊢
    rw [if_pos hen]
    exact setWidth_lt (hnames.hit ((Bool.and_eq_true _ _).mp hen).1) _
  dataWrite w hen := by
    rw [Machine.settle, comb_writeEn] at hen
    rw [Machine.settle, comb_writeAddr]
    dsimp only at hen ⊢
    rw [if_pos hen]
    exact setWidth_lt hhead _
  tagRead w _ := (hlatches w).1
  tagWrite w _ := (hlatches w).2

/-- **Every index is in range in the runs that name none of the last 24 sets.** -/
theorem indexes_in_range (s : Machine .shipped) (hreset : s.AfterReset)
    (hlatches : LatchesInSets s.nets) (input : Nat → Cycle .shipped) (k : Nat)
    (hnames : ∀ j ≤ k, NamesSets (s.run input j) (input j)) :
    IndexesInRange (s.run input k) (input k) := by
  have hsets : 0 < Config.shipped.numSets := by rw [numSets_shipped]; decide
  have hhead : ∀ j ≤ k, InSets .shipped
      (mshrAt (s.run input j).regs.mshrs (s.run input j).regs.waitIdx).addr := by
    intro j hj
    have hmshrs : MshrsInSets (s.run input j).regs.mshrs :=
      Machine.run_regs_invariant (fun r => MshrsInSets r.mshrs) NamesSets hreset
        (fun _ => zero_inSets hsets) (fun _ _ hacts h => mshrsInSets_acts h hacts)
        fun l hl => hnames l (hl.le.trans hj)
    exact head_inSets hsets hmshrs _
  have hstays : LatchesInSets (s.run input k).nets :=
    Clocked.persists (P := fun j => LatchesInSets (s.run input j).nets) (Nat.zero_le k) hlatches
      fun j _ hj h => latchesInSets_settle (hhead j hj.le) h (hnames j hj.le)
  have hsettled := latchesInSets_settle (hhead k le_rfl) hstays (hnames k le_rfl)
  exact indexesInRange_of_latches (hhead k le_rfl) hsettled (hnames k le_rfl)

/-- Set 7 was looked up and refilled in every way before the reset. -/
def resetAfterUse : System .shipped where
  regs := .reset _
  nets := { Nets.zero _ with readMetaAddr := fun _ => 7, writeMetaAddr := fun _ => 7 }
  arrays := .zero _

/-- A READ of the last set there is, and its refill. -/
def readSet999 : Nat → Drive .shipped
  | 0 => .request .read 0xf9c0 1
  | _ + 1 => .response _ 7#512

theorem readSet999_in_range :
    IndexesInRange (resetAfterUse.toMachine.run (resetAfterUse.cycles readSet999) 1)
      (resetAfterUse.cycles readSet999 1) := by
  refine indexes_in_range resetAfterUse.toMachine rfl (by decide +kernel) _ 1 fun j hj => ?_
  rcases Nat.le_one_iff_eq_zero_or_eq_one.mp hj with rfl | rfl
  · exact ⟨by decide +kernel, by decide +kernel, by decide +kernel⟩
  · exact ⟨by decide +kernel, by decide +kernel, by decide +kernel⟩

/-- A READ of the first set there is not. -/
def readSet1000 : Nat → Drive .shipped
  | 0 => .request .read 0xfa00 1
  | _ + 1 => .response _ 7#512

theorem set_out_of_range :
    ¬∀ (s : System .shipped) (input : Nat → Drive .shipped) (k : Nat), s.AfterReset →
      IndexesInRange (s.toMachine.run (s.cycles input) k) (s.cycles input k) := by
  intro hclaim
  have hrange := hclaim (.fresh _) readSet1000 1 ⟨rfl, rfl⟩
  exact absurd (hrange.lrus (by decide +kernel)) (by decide +kernel)

end MultiCoreL2Cache
