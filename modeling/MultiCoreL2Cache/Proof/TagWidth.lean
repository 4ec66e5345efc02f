import MultiCoreL2Cache.Proof.HiddenState
import MultiCoreL2Cache.Proof.SettledCycles
import MultiCoreL2Cache.Proof.TagStorage

/-!
# Widening the tag memories

`META_WIDTH` cuts the valid bit off, but that is not the only thing between the cache and a hit. What
a tag memory is given to store is `write_meta`, and nothing drives it: the block computes
`next_write_meta` and leaves it there. With tag memories of any width the cache runs cycle by cycle as
it does with the narrow ones, unless the undriven nets happen to read as a valid packet.
-/

namespace MultiCoreL2Cache

open MemDP Packed

variable {cfg : Config} {width : Nat}

/-- The undriven nets of the cycle read as packets that are not valid. -/
structure BringsNoPacket (i : Drive cfg × BitVec width) : Prop where
  writeMeta : ∀ w, (i.1.writeMeta w).valid = false
  tagX : (packetOf i.2 : MetaPacket cfg).valid = false

/-- The two systems have the same registers, decide alike, and neither stores a valid packet. -/
structure Twin (s : WideSystem cfg width) (t : System cfg) : Prop where
  regs : s.regs = t.regs
  waiting : s.nets.waiting = t.nets.waiting
  mshrExists : s.nets.mshrExists = t.nets.mshrExists
  stored : ∀ w set, (s.stored w set).valid = false

theorem packetOf_zero_valid : (packetOf (BitVec.ofNat width 0) : MetaPacket cfg).valid = false := by
  simp [packetOf, MetaPacket.ofBits]

/-- No width makes a packet valid that is stored as not valid. -/
theorem packetOf_toBits_valid {p : MetaPacket cfg} (hvalid : p.valid = false) :
    (packetOf (p.toBits.setWidth width) : MetaPacket cfg).valid = false := by
  have hbit : p.toBits.getLsbD (1 + cfg.numCores + 2 + 32) = p.valid :=
    congrArg MetaPacket.valid (MetaPacket.ofBits_toBits p)
  have hread : (packetOf (p.toBits.setWidth width) : MetaPacket cfg).valid =
      ((p.toBits.setWidth width).setWidth (1 + 1 + cfg.numCores + 2 + 32)).getLsbD
        (1 + cfg.numCores + 2 + 32) := rfl
  rw [hread, BitVec.getLsbD_setWidth, BitVec.getLsbD_setWidth, hbit, hvalid, Bool.and_false,
    Bool.and_false]

namespace WideSystem

variable {s : WideSystem cfg width} {d : Drive cfg} {tagX : BitVec width} {n : Nets cfg}

/-! ### Where a cycle that finds nothing settles -/

section Blind

variable (hstored : ∀ w set, (s.stored w set).valid = false)
  (htagX : (packetOf tagX : MetaPacket cfg).valid = false)
include hstored htagX

theorem cycle_blind_of_stored (n : Nets cfg) : (s.cycle d tagX n).Blind := by
  intro w
  have hport : (s.cycle d tagX n).readMeta w =
      packetOf ((rdata 0 (s.arrays.tags w) (wideTagWrite width d.toUndriven n w) (n.readMetaEn w)
        (n.readMetaAddr w)).getD tagX) := rfl
  rw [hport]
  by_cases hen : n.readMetaEn w = true
  · have hread : rdata 0 (s.arrays.tags w) (wideTagWrite width d.toUndriven n w) (n.readMetaEn w)
        (n.readMetaAddr w) = word (s.arrays.tags w) (n.readMetaAddr w) := by
      simp [rdata, hen]
    rw [hread]
    unfold word select?
    split
    · exact hstored w _
    · exact htagX
  · simp [rdata, hen, packetOf_zero_valid]

/-- However often the block has been evaluated, the nets are those of one evaluation. -/
theorem iterate_eval_eq (k : Nat) :
    (s.eval d tagX)^[k + 1] s.nets =
      comb s.regs (s.cycle d tagX ((s.eval d tagX)^[k] s.nets)) s.nets := by
  induction k with
  | zero => rfl
  | succ k ih =>
      rw [Function.iterate_succ_apply', eval]
      nth_rewrite 2 [ih]
      exact (overrides_of_blind s.regs (cycle_blind_of_stored hstored htagX _)
        (cycle_blind_of_stored hstored htagX _)).comb_eq s.nets

theorem settled_eq_comb :
    s.settled d tagX = comb s.regs (s.cycle d tagX ((s.eval d tagX)^[3] s.nets)) s.nets :=
  iterate_eval_eq hstored htagX 3

theorem settled_waiting : (s.settled d tagX).waiting = s.nets.waiting := by
  have hblind := cycle_blind_of_stored (d := d) hstored htagX ((s.eval d tagX)^[3] s.nets)
  rw [settled_eq_comb hstored htagX, comb_waiting, hitActive_of_blind hblind,
    victimActive_of_blind hblind]
  rfl

theorem settled_mshrExists :
    (s.settled d tagX).mshrExists =
      (s.nets.mshrExists || (misses s.regs d.bare && mshrMatch s.regs d.bare)) := by
  have hmisses : misses s.regs (s.cycle d tagX ((s.eval d tagX)^[3] s.nets)) =
      misses s.regs d.bare :=
    misses_bare (cycle_blind_of_stored hstored htagX _) s.regs
  rw [settled_eq_comb hstored htagX, comb_mshrExists, hmisses]
  rfl

/-- After an evaluation that finds nothing the data memories are not enabled. -/
theorem eval_readData (n : Nets cfg) (w : cfg.Way) :
    (s.cycle d tagX (s.eval d tagX n)).readData w = 0#512 := by
  have hen : (s.eval d tagX n).readEn w = false := by
    rw [eval, comb_readEn, looksUp_of_blind (cycle_blind_of_stored hstored htagX n)]
    rfl
  have hport : (s.cycle d tagX (s.eval d tagX n)).readData w =
      (rdata 0 (s.arrays.data w) (dataWrite d.toUndriven (s.eval d tagX n) w)
        ((s.eval d tagX n).readEn w) ((s.eval d tagX n).readAddr w)).getD d.dataX := rfl
  rw [hport, hen]
  rfl

theorem settled_next : (s.settled d tagX).next = (comb s.regs d.bare s.nets).next := by
  rw [settled_eq_comb hstored htagX, Function.iterate_succ_apply']
  exact comb_next_bare (cycle_blind_of_stored hstored htagX _) s.regs s.nets
    (eval_readData hstored htagX _)

end Blind

/-! ### What a clock edge stores -/

theorem tick_stored_valid {i : Drive cfg × BitVec width} (hbrings : BringsNoPacket i)
    (hstored : ∀ w set, (s.stored w set).valid = false) (w : cfg.Way) (set : Fin cfg.numSets) :
    ((s.tick i).stored w set).valid = false := by
  have hword : (s.tick i).arrays.tags w = posedge i.1.reset
      (wideTagWrite width i.1.toUndriven (s.settled i.1 i.2) w) (s.arrays.tags w) := rfl
  unfold stored
  rw [hword]
  cases i.1.reset with
  | true => exact packetOf_zero_valid
  | false =>
      rw [posedge_apply]
      split
      · exact packetOf_toBits_valid (hbrings.writeMeta w)
      · exact hstored w set

end WideSystem

/-! ### The two systems run alike -/

theorem Twin.step {s : WideSystem cfg width} {t : System cfg} {i : Drive cfg × BitVec width}
    (hbrings : BringsNoPacket i) (h : Twin s t) : Twin (s.tick i) (t.step i.1) := by
  have hwaiting : (s.settled i.1 i.2).waiting = t.nets.waiting :=
    (WideSystem.settled_waiting h.stored hbrings.tagX).trans h.waiting
  have hnext : (s.settled i.1 i.2).next = (comb s.regs i.1.bare s.nets).next :=
    WideSystem.settled_next h.stored hbrings.tagX
  refine ⟨?_, ?_, ?_, WideSystem.tick_stored_valid hbrings h.stored⟩
  · have hs : (s.tick i).regs = clocked i.1.reset s.regs (s.settled i.1 i.2) := rfl
    have ht : (t.step i.1).regs = clocked i.1.reset t.regs (t.settled i.1) := rfl
    have hsame := comb_next_congr (r := s.regs) (c := i.1.bare) h.mshrExists
    rw [hs, ht]
    unfold clocked
    rw [hwaiting, settled_waiting, hnext, System.settled_next, hsame, h.regs]
  · exact hwaiting.trans (settled_waiting t i.1).symm
  · have hs : (s.tick i).nets = s.settled i.1 i.2 := rfl
    have ht : (t.step i.1).nets = t.settled i.1 := rfl
    rw [hs, ht, WideSystem.settled_mshrExists h.stored hbrings.tagX, settled_mshrExists,
      h.mshrExists, h.regs]

/-- **Widening the tag memories alone changes nothing.** -/
theorem width_changes_nothing (s : WideSystem cfg width) (t : System cfg) (htwin : Twin s t)
    (input : Nat → Drive cfg × BitVec width) (hbrings : ∀ k, BringsNoPacket (input k)) (k : Nat) :
    Twin (s.ticks input k) (t.run (fun j => (input j).1) k) :=
  Clocked.run_related htwin (fun j _ _ => Twin.step (hbrings j)) k

/-- Tag memories that are as wide as the packet. -/
def fullWidth : WideSystem .shipped 40 := ⟨.fresh _, fun _ _ => 0#512, fun _ _ => 0⟩

/-- Core 1 reads a line, DRAM answers, and core 1 reads the line again. -/
def readAnswerRead : Nat → Drive .shipped × BitVec 40
  | 0 => ⟨.request .read 0x40 1, 0⟩
  | 1 => ⟨.response _ 7#512, 0⟩
  | _ + 2 => ⟨.request .read 0x40 1, 0⟩

theorem readAnswerRead_bringsNoPacket (k : Nat) : BringsNoPacket (readAnswerRead k) := by
  rcases k with _ | _ | k
  · exact ⟨fun _ => rfl, packetOf_zero_valid⟩
  · exact ⟨fun _ => rfl, packetOf_zero_valid⟩
  · exact ⟨fun _ => rfl, packetOf_zero_valid⟩

theorem readAnswerRead_twin :
    Twin (fullWidth.ticks readAnswerRead 9)
      ((System.fresh .shipped).run (fun j => (readAnswerRead j).1) 9) :=
  width_changes_nothing fullWidth (.fresh _) ⟨rfl, rfl, rfl, fun _ _ => packetOf_zero_valid⟩
    readAnswerRead readAnswerRead_bringsNoPacket 9

end MultiCoreL2Cache
