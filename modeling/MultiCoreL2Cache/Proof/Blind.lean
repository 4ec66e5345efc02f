import MultiCoreL2Cache.Library.Settling
import MultiCoreL2Cache.Model.System
import MultiCoreL2Cache.Proof.CombEffects

/-!
# A cache that never sees a valid line

`META_WIDTH` counts a tag where the packet has a whole address. The first member of the packet,
`valid`, lies above that width, so no packet that a tag memory presents is valid: with its memories
connected the cache misses every lookup and finds nothing to evict in any refill. A cycle of the
closed system is therefore a cycle of the open one that presents no valid line, and it settles in two
evaluations.
-/

namespace MultiCoreL2Cache

open MemDP Packed

variable {cfg : Config}

/-- No way presents a valid line. -/
def WayPorts.Blind (p : WayPorts cfg) : Prop := ∀ w, (p.readMeta w).valid = false

theorem metaWidth_le (cfg : Config) : cfg.metaWidth ≤ 1 + cfg.numCores + 2 + 32 := by
  have hline : clog2 lineSizeBits = 9 := by decide
  unfold Config.metaWidth Config.l2TagWidth
  omega

theorem ofBits_setWidth_valid (word : BitVec cfg.metaWidth) :
    (MetaPacket.ofBits (word.setWidth _) : MetaPacket cfg).valid = false := by
  unfold MetaPacket.ofBits
  rw [BitVec.getLsbD_setWidth, BitVec.getLsbD_of_ge word _ (metaWidth_le cfg), Bool.and_false]

theorem Arrays.ports_blind (a : Arrays cfg) (u : Undriven cfg) (n : Nets cfg) :
    (a.ports u n).Blind := fun _ => ofBits_setWidth_valid _

section Branches

variable {r : Regs cfg} {c : Cycle cfg} (hblind : c.Blind)
include hblind

theorem hit_of_blind : hit c = fun _ => false := by
  funext w
  simp [hit, hblind w]

theorem hitAny_of_blind : hitAny c = false := by
  simp [hitAny, hit_of_blind hblind]

theorem hitWay_of_blind : hitWay c = 0 := by
  have hnone : lastIndex (hit c) = none :=
    lastIndex_eq_none_iff.mpr fun w => congrFun (hit_of_blind hblind) w
  simp [hitWay, hnone]

theorem victimActive_of_blind : victimActive r c = false := by
  simp [victimActive, victimModified, victimDirty, hblind (lruWay r)]

theorem victimAllocates_of_blind : victimAllocates r c = false := by
  simp [victimAllocates, victimActive_of_blind hblind]

theorem hitActive_of_blind : hitActive r c = false := by
  simp [hitActive, hitAny_of_blind hblind]

theorem looksUp_of_blind : looksUp r c = false := by
  simp [looksUp, hitAny_of_blind hblind]

theorem misses_of_blind : misses r c = readOrWrite r c := by
  simp [misses, hitAny_of_blind hblind]

end Branches

/-! ### A cycle settles -/

theorem overrides_of_blind (r : Regs cfg) {d : Drive cfg} {p p' : WayPorts cfg}
    (hblind : (Cycle.mk d p).Blind) (hblind' : (Cycle.mk d p').Blind) :
    Overrides r ⟨d, p⟩ ⟨d, p'⟩ where
  drive := rfl
  waiting := by
    rw [hitActive_of_blind hblind', victimActive_of_blind hblind']
    simp
  misses := by
    rw [misses_of_blind hblind, misses_of_blind hblind']
    exact id
  lookUp w := by
    rw [looksUp_of_blind hblind']
    simp
  data w := by
    simp [nextData, requestData, hitActive_of_blind hblind, hitActive_of_blind hblind',
      hitWay_of_blind hblind, hitWay_of_blind hblind', stalled]
  packet := by
    have hstalled : stalled r ⟨d, p'⟩ = stalled r ⟨d, p⟩ := rfl
    unfold requestMeta
    rw [hitAny_of_blind hblind, hitAny_of_blind hblind', hstalled]
    by_cases hstall : stalled r ⟨d, p⟩ = true
    · simp [hstall]
    · cases hkind : d.l2EntryPacket.reqType <;> simp [hstall]
  packetWay _ := by
    rw [hitWay_of_blind hblind, hitWay_of_blind hblind']

namespace System

variable (s : System cfg) (d : Drive cfg)

theorem cycle_blind (n : Nets cfg) : (s.cycle d n).Blind := s.arrays.ports_blind d.toUndriven n

theorem openCycle_blind : (s.openCycle d).Blind := s.cycle_blind d _

theorem ports_congr {n n' : Nets cfg} (hen : n'.readEn = n.readEn)
    (haddr : n'.readAddr = n.readAddr) (hmetaEn : n'.readMetaEn = n.readMetaEn)
    (hmetaAddr : n'.readMetaAddr = n.readMetaAddr) : s.cycle d n' = s.cycle d n := by
  simp only [cycle, Arrays.ports, rdata, hen, haddr, hmetaEn, hmetaAddr]
  rfl

theorem eval_readEn (n : Nets cfg) : (s.eval d n).readEn = fun _ => false := by
  rw [eval, comb_readEn, looksUp_of_blind (s.cycle_blind d n)]
  simp

theorem eval_readAddr (n : Nets cfg) : (s.eval d n).readAddr = n.readAddr := by
  rw [eval, comb_readAddr, looksUp_of_blind (s.cycle_blind d n)]
  simp

theorem eval_readMetaEn (n : Nets cfg) :
    (s.eval d n).readMetaEn = fun w => d.rPacket.rValid && decide (w = lruWay s.regs) := by
  rw [eval, comb_readMetaEn, looksUp_of_blind (s.cycle_blind d n)]
  simp [cycle]

theorem eval_readMetaAddr (n : Nets cfg) : (s.eval d n).readMetaAddr = n.readMetaAddr := by
  rw [eval, comb_readMetaAddr, looksUp_of_blind (s.cycle_blind d n)]
  simp

/-- From the second evaluation on, the block reads what the settled cycle presents. -/
theorem cycle_eval_eval (n : Nets cfg) :
    s.cycle d (s.eval d (s.eval d n)) = s.cycle d (s.eval d n) := by
  apply ports_congr
  · rw [eval_readEn, eval_readEn]
  · rw [eval_readAddr]
  · rw [eval_readMetaEn, eval_readMetaEn]
  · rw [eval_readMetaAddr]

theorem settled_eq : s.settled d = comb s.regs (s.openCycle d) s.nets := by
  have hcycle : s.openCycle d = s.cycle d (s.eval d s.nets) := s.cycle_eval_eval d s.nets
  rw [hcycle]
  exact (overrides_of_blind s.regs (s.cycle_blind d _) (s.cycle_blind d _)).comb_eq s.nets

theorem eval_settled : s.eval d (s.settled d) = s.settled d := by
  have hcycle : s.openCycle d = s.cycle d (s.settled d) := rfl
  rw [eval, ← hcycle, settled_eq, comb_comb]

/-- **A cycle settles, and only where `settled` says.** -/
theorem settles_iff {n : Nets cfg} : s.Settles d n ↔ n = s.settled d := by
  have hsettled : Settling.Settles (s.eval d) s.nets (s.settled d) :=
    Settling.settles_of_repeats 2 (s.eval_settled d)
  constructor
  · intro h
    exact Settling.Settles.unique h hsettled
  · rintro rfl
    exact hsettled

/-! ### The closed system runs as an open machine -/

theorem step_toMachine : (s.step d).toMachine = s.toMachine.step (s.openCycle d) := by
  unfold step Machine.step Machine.settle
  rw [settled_eq]
  rfl

theorem run_toMachine (input : Nat → Drive cfg) (k : Nat) :
    (s.run input k).toMachine = s.toMachine.run (s.cycles input) k := by
  induction k with
  | zero => rfl
  | succ k ih =>
      rw [run, Clocked.run_succ, step_toMachine, ih]
      rfl

theorem cycles_blind (input : Nat → Drive cfg) (k : Nat) : (s.cycles input k).Blind :=
  cycle_blind _ _ _

/-! ### The memories are never read

A data memory is enabled by a hit only, so it presents zeros, and of what a tag memory presents only
the `valid` bits reach a register. The block computes the same registers from empty ports. -/

theorem openCycle_readData (w : cfg.Way) : (s.openCycle d).readData w = 0#512 := by
  have hen : (s.settled d).readEn w = false := by rw [settled, eval_readEn]
  have hport : (s.openCycle d).readData w =
      (rdata 0 (s.arrays.data w) (dataWrite d.toUndriven (s.settled d) w) ((s.settled d).readEn w)
        ((s.settled d).readAddr w)).getD d.dataX := rfl
  rw [hport, hen]
  rfl

end System

def Drive.bare (d : Drive cfg) : Cycle cfg where
  toDrive := d
  readData _ := 0#512
  readMeta _ := .zero cfg

theorem Drive.bare_blind (d : Drive cfg) : d.bare.Blind := fun _ => rfl

section Bare

variable {d : Drive cfg} {p : WayPorts cfg} (hblind : (Cycle.mk d p).Blind)
include hblind

theorem misses_bare (r : Regs cfg) : misses r ⟨d, p⟩ = misses r d.bare := by
  rw [misses_of_blind hblind, misses_of_blind d.bare_blind]
  rfl

theorem missAllocates_bare (r : Regs cfg) (exists' : Bool) :
    missAllocates r ⟨d, p⟩ exists' = missAllocates r d.bare exists' := by
  unfold missAllocates
  rw [misses_bare hblind]
  rfl

theorem servedLine_bare (r : Regs cfg) (hdata : ∀ w, p.readData w = 0#512) :
    servedLine r ⟨d, p⟩ = servedLine r d.bare := by
  have hstalled : stalled r ⟨d, p⟩ = stalled r d.bare := rfl
  unfold servedLine
  rw [hstalled, hitAny_of_blind hblind, hitAny_of_blind d.bare_blind, hdata]
  rfl

theorem comb_next_bare (r : Regs cfg) (n : Nets cfg) (hdata : ∀ w, p.readData w = 0#512) :
    (comb r ⟨d, p⟩ n).next = (comb r d.bare n).next := by
  have halloc := missAllocates_bare hblind r n.mshrExists
  have hvictim : victimAllocates r ⟨d, p⟩ = victimAllocates r d.bare := by
    rw [victimAllocates_of_blind hblind, victimAllocates_of_blind d.bare_blind]
  have hdram : dramMshrs r ⟨d, p⟩ = dramMshrs r d.bare := by
    rw [dramMshrs, dramMshrs, victimAllocates_of_blind hblind,
      victimAllocates_of_blind d.bare_blind]
    rfl
  ext1
  · rw [comb_l2ExitPacket, comb_l2ExitPacket]
    unfold exitAfter
    rw [servedLine_bare hblind r hdata, misses_bare hblind, halloc]
    rfl
  · funext core
    simp [comb_snoopReq, victimTargets, hitTargets, victimActive_of_blind hblind,
      victimActive_of_blind d.bare_blind, hitActive_of_blind hblind,
      hitActive_of_blind d.bare_blind]
  · rw [comb_mshrs, comb_mshrs, halloc, hdram]
    rfl
  · rw [comb_freeIdx, comb_freeIdx, halloc, hvictim]
  · rw [comb_waitIdx, comb_waitIdx]
    rfl
  · rw [comb_awPacket, comb_awPacket]
    rfl
  · rw [comb_wPacket, comb_wPacket]
    rfl
  · rw [comb_arPacket, comb_arPacket]
    rfl
  · rw [comb_lrus, comb_lrus]
    rfl

end Bare

namespace System

theorem settled_next (s : System cfg) (d : Drive cfg) :
    (s.settled d).next = (comb s.regs d.bare s.nets).next := by
  rw [settled_eq]
  exact comb_next_bare (s.cycle_blind d _) s.regs s.nets (s.openCycle_readData d)

end System

end MultiCoreL2Cache
