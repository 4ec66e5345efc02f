import MultiCoreL2Cache.Proof.SettledCycles

/-!
# Lines that reach nothing

The line of an entry packet and the line of a read response are assigned to `next_write_data`, and
nothing reads `next_write_data`: the data memories are connected to `write_data`. So no run depends
on them, nor on the response codes, whatever the width of the tag memories.
-/

namespace MultiCoreL2Cache

variable {cfg : Config} {width : Nat} {r : Regs cfg} {c : Cycle cfg} {n n' : Nets cfg}

/-! ### One evaluation -/

/-- The cycle with other lines and other response codes. -/
def Drive.withLines (d : Drive cfg) (entryLine rData : CacheLine) (rResp bResp : Bool) : Drive cfg :=
  { d with
    l2EntryPacket := { d.l2EntryPacket with cacheLine := entryLine }
    rPacket := { d.rPacket with rData := rData, rResp := rResp }
    bPacket := { d.bPacket with bResp := bResp } }

def Drive.SameButLines (d d' : Drive cfg) : Prop :=
  d' = d.withLines d'.l2EntryPacket.cacheLine d'.rPacket.rData d'.rPacket.rResp d'.bPacket.bResp

theorem Drive.response_sameButLines (line line' : CacheLine) :
    (Drive.response cfg line).SameButLines (.response cfg line') := rfl

/-- The other nets agree. -/
def Nets.SameButData (n n' : Nets cfg) : Prop := n' = { n with nextWriteData := n'.nextWriteData }

/-- The lines reach no net but `next_write_data`, and that net reaches no other. -/
theorem comb_sameButData {entryLine rData : CacheLine} {rResp bResp : Bool}
    (hnets : n.SameButData n') :
    (comb r c n).SameButData
      (comb r { c with toDrive := c.toDrive.withLines entryLine rData rResp bResp } n') := by
  rw [Nets.SameButData] at hnets ⊢
  rw [hnets]
  ext1
  · rw [comb_waiting, comb_waiting]
    rfl
  · rw [comb_mshrExists, comb_mshrExists]
    rfl
  · rw [comb_readEn, comb_readEn]
    rfl
  · rw [comb_readAddr, comb_readAddr]
    rfl
  · rw [comb_writeEn, comb_writeEn]
    rfl
  · rw [comb_writeAddr, comb_writeAddr]
    rfl
  · rfl
  · rw [comb_readMetaEn, comb_readMetaEn]
    rfl
  · rw [comb_readMetaAddr, comb_readMetaAddr]
    rfl
  · rw [comb_writeMetaEn, comb_writeMetaEn]
    rfl
  · rw [comb_writeMetaAddr, comb_writeMetaAddr]
    rfl
  · rw [comb_nextWriteMeta, comb_nextWriteMeta]
    rfl
  · ext1
    · rw [comb_l2ExitPacket, comb_l2ExitPacket]
      rfl
    · funext core
      rw [comb_snoopReq, comb_snoopReq]
      rfl
    · rw [comb_mshrs, comb_mshrs]
      rfl
    · rw [comb_freeIdx, comb_freeIdx]
      rfl
    · rw [comb_waitIdx, comb_waitIdx]
      rfl
    · rw [comb_awPacket, comb_awPacket]
      rfl
    · rw [comb_wPacket, comb_wPacket]
      rfl
    · rw [comb_arPacket, comb_arPacket]
      rfl
    · rw [comb_lrus, comb_lrus]
      rfl

/-! ### Runs -/

namespace WideSystem

/-- Both states show the same and store the same. -/
structure SameButData (s s' : WideSystem cfg width) : Prop where
  regs : s'.regs = s.regs
  nets : s.nets.SameButData s'.nets
  arrays : s'.arrays = s.arrays

variable {s s' : WideSystem cfg width} {d d' : Drive cfg} {tagX : BitVec width}

theorem eval_sameButData (hsame : s.SameButData s') (hdrive : d.SameButLines d')
    (hnets : n.SameButData n') : (s.eval d tagX n).SameButData (s'.eval d' tagX n') := by
  have hcycle : s'.cycle d' tagX n' = { s.cycle d tagX n with
      toDrive := d.withLines d'.l2EntryPacket.cacheLine d'.rPacket.rData d'.rPacket.rResp
        d'.bPacket.bResp } := by
    rw [Drive.SameButLines] at hdrive
    rw [Nets.SameButData] at hnets
    rw [hnets, cycle, hsame.arrays, hdrive]
    rfl
  unfold eval
  rw [hcycle, hsame.regs]
  exact comb_sameButData hnets

theorem settled_sameButData (hsame : s.SameButData s') (hdrive : d.SameButLines d') :
    (s.settled d tagX).SameButData (s'.settled d' tagX) :=
  Settling.iterate_related Nets.SameButData hsame.nets
    (fun _ _ => eval_sameButData hsame hdrive) 4

theorem tick_sameButData (hsame : s.SameButData s') (hdrive : d.SameButLines d') :
    (s.tick (d, tagX)).SameButData (s'.tick (d', tagX)) := by
  have hnets : (s.settled d tagX).SameButData (s'.settled d' tagX) :=
    settled_sameButData hsame hdrive
  have hnets' := hnets
  rw [Nets.SameButData] at hnets'
  rw [Drive.SameButLines] at hdrive
  refine ⟨?_, hnets, ?_⟩
  · calc (s'.tick (d', tagX)).regs
        = clocked d'.reset s'.regs (s'.settled d' tagX) := rfl
      _ = clocked d.reset s.regs (s.settled d tagX) := by
        rw [hsame.regs, hnets', hdrive]
        rfl
  · calc (s'.tick (d', tagX)).arrays
        = s'.arrays.edge d'.reset d'.toUndriven (s'.settled d' tagX) := rfl
      _ = s.arrays.edge d.reset d.toUndriven (s.settled d tagX) := by
        rw [hsame.arrays, hnets', hdrive]
        rfl

end WideSystem

/-- **The cache keeps no line that it is given.** Two runs whose inputs differ in the lines of the
entry packets, the lines of the read responses and the response codes at most have the same registers,
outputs among them, and the same memories in every cycle. -/
theorem WideSystem.lines_unused (s : WideSystem cfg width)
    (input input' : Nat → Drive cfg × BitVec width)
    (hsame : ∀ k, (input k).1.SameButLines (input' k).1 ∧ (input k).2 = (input' k).2) (k : Nat) :
    (s.ticks input k).regs = (s.ticks input' k).regs ∧
      (s.ticks input k).arrays = (s.ticks input' k).arrays := by
  have hrun : (s.ticks input k).SameButData (s.ticks input' k) := by
    refine Clocked.run_related (R := SameButData) ⟨rfl, rfl, rfl⟩ (fun j t t' htt => ?_) k
    obtain ⟨hdrive, htag⟩ := hsame j
    have hpair : input j = ((input j).1, (input' j).2) := by rw [← htag]
    rw [hpair]
    exact tick_sameButData htt hdrive
  exact ⟨hrun.regs.symm, hrun.arrays.symm⟩

/-- Core 1 reads a line, and DRAM answers with one line or another. -/
def readAnswered (line : CacheLine) : Nat → Drive .shipped × BitVec 40
  | 0 => (.request .read 0x40 1, 0)
  | _ + 1 => (.response _ line, 0)

theorem readAnswered_sameButLines (line line' : CacheLine) (k : Nat) :
    (readAnswered line k).1.SameButLines (readAnswered line' k).1 ∧
      (readAnswered line k).2 = (readAnswered line' k).2 := by
  cases k with
  | zero => exact ⟨rfl, rfl⟩
  | succ k => exact ⟨Drive.response_sameButLines line line', rfl⟩

theorem readAnswered_unused :
    ((⟨Machine.fresh .shipped, fun _ _ => 0#512, fun _ _ => 0⟩ : WideSystem .shipped 40).ticks
        (readAnswered 7#512) 2).arrays =
      ((⟨Machine.fresh .shipped, fun _ _ => 0#512, fun _ _ => 0⟩ : WideSystem .shipped 40).ticks
        (readAnswered 9#512) 2).arrays :=
  (WideSystem.lines_unused _ _ _ (readAnswered_sameButLines _ _) 2).2

end MultiCoreL2Cache
