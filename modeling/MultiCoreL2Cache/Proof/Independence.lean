import MultiCoreL2Cache.Proof.DirectoryStore
import MultiCoreL2Cache.Proof.Replies

/-!
# What a cycle does not depend on

The stall bit gates the only section that reads the entry packet, so what a stalled core has on its
bus does not reach the cache. The MSHRs are read by misses, responses and the DRAM requests, so a hit
is served alike whatever misses are outstanding.
-/

namespace MultiCoreL2Cache

variable {cfg : Config} {width : Nat} {r : Regs cfg} {c : Cycle cfg} {n : Nets cfg}

/-! ### Stalled cores -/

/-- Every other section of the block leaves the entry packet unread. -/
theorem comb_of_stalled (hstall : stalled r c = true) :
    comb r c n = issue r c (dramNets r c n) := by
  unfold comb request
  rw [hstall]
  rfl

theorem comb_packet_of_stalled {p : L2EntryPacket cfg} (hstall : stalled r c = true)
    (hcore : p.coreId = c.l2EntryPacket.coreId) :
    comb r { c with l2EntryPacket := p } n = comb r c n := by
  have hstall' : stalled r { c with l2EntryPacket := p } = true := by
    unfold stalled at hstall ⊢
    rwa [hcore]
  rw [comb_of_stalled hstall, comb_of_stalled hstall']
  rfl

namespace WideSystem

variable {s : WideSystem cfg width} {i : WideInput cfg width}

theorem Settles.step_toMachine (h : s.Settles i) :
    (s.step i).toMachine = Machine.step ⟨s.regs, i.nets⟩ (s.settledCycle i) := by
  unfold Machine.step Machine.settle
  rw [h.nets_eq]
  rfl

theorem eval_packet_of_stalled {d : Drive cfg} {p : L2EntryPacket cfg} (tagX : BitVec width)
    (hstall : (s.regs.l2ExitPacket d.l2EntryPacket.coreId).stall = true)
    (hcore : p.coreId = d.l2EntryPacket.coreId) :
    s.eval { d with l2EntryPacket := p } tagX = s.eval d tagX := by
  funext n
  exact comb_packet_of_stalled (c := s.cycle d tagX n) hstall hcore

/-- **Cores do not disturb each other.** A cycle changes the exit packet of the requesting core only,
and the packet of a stalled core changes nothing: any other packet of that core leaves the cycle
settling, and in the same state. -/
theorem cores_apart (s : WideSystem cfg width) (i : WideInput cfg width) (hsettles : s.Settles i)
    (hreset : i.drive.reset = false) :
    (∀ core, core ≠ i.drive.l2EntryPacket.coreId →
      (s.step i).regs.l2ExitPacket core = s.regs.l2ExitPacket core) ∧
    ((s.regs.l2ExitPacket i.drive.l2EntryPacket.coreId).stall = true →
      ∀ p : L2EntryPacket cfg, p.coreId = i.drive.l2EntryPacket.coreId →
        s.Settles { i with drive := { i.drive with l2EntryPacket := p } } ∧
        ∀ n', s.Settles ⟨{ i.drive with l2EntryPacket := p }, i.tagX, n'⟩ →
          s.step ⟨{ i.drive with l2EntryPacket := p }, i.tagX, n'⟩ = s.step i) := by
  refine ⟨fun core hcore => ?_, fun hstall p hp => ?_⟩
  · have hstep := congrArg Machine.regs hsettles.step_toMachine
    rw [hstep]
    exact step_exit_of_ne (c := s.settledCycle i) hreset hcore
  · have heval := eval_packet_of_stalled i.tagX hstall hp
    refine ⟨?_, fun n' hsettles' => ?_⟩
    · unfold Settles
      rw [heval]
      exact hsettles
    · have hsame : Settling.Settles (s.eval i.drive i.tagX) s.nets n' := heval ▸ hsettles'.settling
      rw [hsame.unique hsettles.settling]
      rfl

end WideSystem

/-- Core 1 is stalled and sends an UPGRADE. -/
def oneStalled : WideSystem .shipped 40 where
  regs := { Regs.reset .shipped with
    l2ExitPacket := fun core => { L2ExitPacket.zero with stall := decide (core = 1) } }
  nets := .zero _
  arrays := ⟨fun _ _ => 0, fun _ _ => 0⟩

def stalledUpgrade : WideInput .shipped 40 := oneStalled.settle (.request .upgrade 0x40 1) 0

theorem oneStalled_apart :
    (oneStalled.step stalledUpgrade).regs.l2ExitPacket 0 = oneStalled.regs.l2ExitPacket 0 ∧
      oneStalled.Settles { stalledUpgrade with
        drive := { stalledUpgrade.drive with l2EntryPacket := ⟨.write, 7#512, 0x80, 1⟩ } } := by
  have hapart := WideSystem.cores_apart oneStalled stalledUpgrade
    (oneStalled.settles_settle _ _ (by decide) (by decide)) rfl
  exact ⟨hapart.1 0 (by decide), (hapart.2 (by decide) _ rfl).1⟩

/-! ### Hits beside misses -/

/-- The other registers agree. -/
def Regs.SameButMshrs (r r' : Regs cfg) : Prop :=
  r' = { r with mshrs := r'.mshrs, freeIdx := r'.freeIdx, waitIdx := r'.waitIdx }

/-- The other nets agree. The `next_` nets are not compared: every evaluation assigns them anew. -/
def Nets.SameButMshrs (n n' : Nets cfg) : Prop :=
  n' = { n with mshrExists := n'.mshrExists, next := n'.next }

section Comb

variable {r' : Regs cfg} {n' : Nets cfg} (hregs : r.SameButMshrs r')
include hregs

/-- Without read data the MSHRs reach no net but `mshr_exists`. -/
theorem comb_sameButMshrs (hnets : n.SameButMshrs n') (hread : c.rPacket.rValid = false) :
    (comb r c n).SameButMshrs (comb r' c n') := by
  rw [Regs.SameButMshrs] at hregs
  rw [Nets.SameButMshrs] at hnets ⊢
  rw [hregs, hnets]
  ext1
  · rw [comb_waiting, comb_waiting]
    simp only [victimActive, hread, Bool.false_and]
    rfl
  · rfl
  · rw [comb_readEn, comb_readEn]
    rfl
  · rw [comb_readAddr, comb_readAddr]
    rfl
  · rw [comb_writeEn, comb_writeEn]
    simp only [hread, Bool.false_and]
  · rw [comb_writeAddr, comb_writeAddr]
    simp only [hread, Bool.false_and]
    rfl
  · rw [comb_nextWriteData, comb_nextWriteData]
    simp only [nextData, hread, Bool.false_and]
    rfl
  · rw [comb_readMetaEn, comb_readMetaEn]
    simp only [hread, Bool.false_and]
    rfl
  · rw [comb_readMetaAddr, comb_readMetaAddr]
    rfl
  · rw [comb_writeMetaEn, comb_writeMetaEn]
    rfl
  · rw [comb_writeMetaAddr, comb_writeMetaAddr]
    simp only [hread, Bool.false_and]
    rfl
  · rw [comb_nextWriteMeta, comb_nextWriteMeta]
    rfl
  · rfl

theorem comb_l2ExitPacket_of_hit (hhit : hitAny c = true) :
    (comb r' c n').next.l2ExitPacket = (comb r c n).next.l2ExitPacket := by
  rw [Regs.SameButMshrs] at hregs
  have hmisses : ∀ r : Regs cfg, misses r c = false := fun r => by simp [misses, hhit]
  rw [comb_l2ExitPacket, comb_l2ExitPacket, hregs]
  unfold exitAfter
  simp only [hmisses, Bool.false_and]
  rfl

theorem comb_snoopReq_of_same (hread : c.rPacket.rValid = false) :
    (comb r' c n').next.snoopReq = (comb r c n).next.snoopReq := by
  rw [Regs.SameButMshrs] at hregs
  funext core
  rw [comb_snoopReq, comb_snoopReq, hregs]
  simp only [victimTargets, victimActive, hread, Bool.false_and]
  rfl

theorem comb_lrus_of_same (hread : c.rPacket.rValid = false) :
    (comb r' c n').next.lrus = (comb r c n).next.lrus := by
  rw [Regs.SameButMshrs] at hregs
  rw [comb_lrus, comb_lrus, hregs, hread]
  rfl

end Comb

theorem comb_stall_of_hit (hhit : hitAny c = true) (core : cfg.Core) :
    ((comb r c n).next.l2ExitPacket core).stall = (r.l2ExitPacket core).stall := by
  have hmisses : misses r c = false := by simp [misses, hhit]
  rw [comb_l2ExitPacket]
  dsimp only
  split
  · simp only [exitAfter, hmisses, Bool.false_and, Bool.or_false]
  · rfl

namespace WideSystem

variable {s s' : WideSystem cfg width} {i i' : WideInput cfg width}

theorem Settles.stall_of_hit (h : s.Settles i) (hhit : hitAny (s.settledCycle i) = true)
    {core : cfg.Core} (hstall : ((s.step i).regs.l2ExitPacket core).stall = true) :
    (s.regs.l2ExitPacket core).stall = true := by
  have hstep : (s.step i).regs = clocked i.drive.reset s.regs i.nets := rfl
  rw [hstep, clocked] at hstall
  split at hstall
  · cases hstall
  · split at hstall
    · exact hstall
    · rw [← comb_stall_of_hit hhit core, h.nets_eq]
      exact hstall

/-- A register that was the same and is assigned the same is the same after the clock edge. -/
theorem Settles.step_congr {α : Type*} (f : Regs cfg → α) (h : s.Settles i) (h' : s'.Settles i')
    (hreset : i'.drive.reset = i.drive.reset) (hwaiting : i'.nets.waiting = i.nets.waiting)
    (hregs : f s'.regs = f s.regs)
    (hnext : f (comb s'.regs (s'.settledCycle i') i'.nets).next =
      f (comb s.regs (s.settledCycle i) i.nets).next) :
    f (s'.step i').regs = f (s.step i).regs := by
  rw [h.nets_eq, h'.nets_eq] at hnext
  unfold step clocked
  rw [hreset, hwaiting]
  split
  · rfl
  · split
    · exact hregs
    · exact hnext

structure SameButMshrs (s s' : WideSystem cfg width) : Prop where
  regs : s.regs.SameButMshrs s'.regs
  nets : s.nets.SameButMshrs s'.nets
  arrays : s'.arrays = s.arrays

/-- Both states show the same to the cores and the memories. The nets that are compared hold
`waiting`, the write enables and addresses, `next_write_data` and `next_write_meta`. -/
structure ServedAlike (t t' : WideSystem cfg width) : Prop where
  l2ExitPacket : t'.regs.l2ExitPacket = t.regs.l2ExitPacket
  snoopReq : t'.regs.snoopReq = t.regs.snoopReq
  lrus : t'.regs.lrus = t.regs.lrus
  nets : t.nets.SameButMshrs t'.nets
  arrays : t'.arrays = t.arrays

section Same

variable {d : Drive cfg} {tagX : BitVec width} {n' : Nets cfg} (hsame : s.SameButMshrs s')
include hsame

theorem cycle_of_same (hnets : n.SameButMshrs n') : s'.cycle d tagX n' = s.cycle d tagX n := by
  rw [Nets.SameButMshrs] at hnets
  rw [hnets, cycle, hsame.arrays]
  rfl

theorem eval_sameButMshrs (tagX : BitVec width) (hread : d.rPacket.rValid = false)
    (hnets : n.SameButMshrs n') :
    (s.eval d tagX n).SameButMshrs (s'.eval d tagX n') := by
  unfold eval
  rw [cycle_of_same hsame hnets]
  exact comb_sameButMshrs hsame.regs hnets hread

/-- The second state settles one evaluation after the first. -/
theorem Settles.of_same (h : s.Settles i) (hread : i.drive.rPacket.rValid = false) :
    ∃ n', s'.Settles ⟨i.drive, i.tagX, n'⟩ := by
  obtain ⟨⟨k, hk⟩, hfixed⟩ := h
  have hrelated := Settling.iterate_related Nets.SameButMshrs hsame.nets
    (fun _ _ => eval_sameButMshrs hsame i.tagX hread) k
  rw [← hk] at hrelated
  have hnext := eval_sameButMshrs hsame i.tagX hread hrelated
  rw [hfixed] at hnext
  refine ⟨_, s'.settles_eval i.drive i.tagX k ?_⟩
  rw [cycle_of_same hsame hrelated, cycle_of_same hsame hnext]

theorem Settles.nets_same (h : s.Settles i) (hread : i.drive.rPacket.rValid = false)
    (h' : s'.Settles ⟨i.drive, i.tagX, n'⟩) : i.nets.SameButMshrs n' :=
  Settling.Settles.related _ h.settling h'.settling hsame.nets
    fun _ _ => eval_sameButMshrs hsame i.tagX hread

theorem Settles.servedAlike (h : s.Settles i) (hhit : hitAny (s.settledCycle i) = true)
    (hread : i.drive.rPacket.rValid = false) (h' : s'.Settles ⟨i.drive, i.tagX, n'⟩) :
    (s.step i).ServedAlike (s'.step ⟨i.drive, i.tagX, n'⟩) := by
  have hnets := h.nets_same hsame hread h'
  have hregs := hsame.regs
  have hwaiting : n'.waiting = i.nets.waiting := by rw [hnets]
  have hcycle : s'.settledCycle ⟨i.drive, i.tagX, n'⟩ = s.settledCycle i :=
    cycle_of_same hsame hnets
  have hread' : (s.settledCycle i).rPacket.rValid = false := hread
  refine ⟨?_, ?_, ?_, hnets, ?_⟩
  · apply h.step_congr (fun r => r.l2ExitPacket) h' rfl hwaiting (by rw [hregs])
    rw [hcycle]
    exact comb_l2ExitPacket_of_hit hregs hhit
  · apply h.step_congr (fun r => r.snoopReq) h' rfl hwaiting (by rw [hregs])
    rw [hcycle]
    exact comb_snoopReq_of_same hregs hread'
  · apply h.step_congr (fun r => r.lrus) h' rfl hwaiting (by rw [hregs])
    rw [hcycle]
    exact comb_lrus_of_same hregs hread'
  · calc (s'.step ⟨i.drive, i.tagX, n'⟩).arrays
        = s'.arrays.edge i.drive.reset i.drive.toUndriven n' := rfl
      _ = s.arrays.edge i.drive.reset i.drive.toUndriven i.nets := by
        rw [hsame.arrays, hnets]
        rfl

/-- **Hits are served independently of outstanding misses.** Two states that differ in the MSHRs at
most serve a request that hits alike, and neither stalls a core. -/
theorem hits_served_alike (hsettles : s.Settles i) (hhit : hitAny (s.settledCycle i) = true)
    (hread : i.drive.rPacket.rValid = false) :
    (∃ n', s'.Settles ⟨i.drive, i.tagX, n'⟩) ∧
      ∀ n', s'.Settles ⟨i.drive, i.tagX, n'⟩ →
        (s.step i).ServedAlike (s'.step ⟨i.drive, i.tagX, n'⟩) ∧
        ∀ core, ((s.step i).regs.l2ExitPacket core).stall = true →
          (s.regs.l2ExitPacket core).stall = true := by
  refine ⟨hsettles.of_same hsame hread, fun n' hsettles' => ⟨?_, fun core hstall => ?_⟩⟩
  · exact hsettles.servedAlike hsame hhit hread hsettles'
  · exact hsettles.stall_of_hit hhit hstall

end Same

end WideSystem

/-- `lineEnabled` with an MSHR outstanding. -/
def lineEnabledBusy : WideSystem .shipped 40 where
  regs := { lineEnabled.regs with
    mshrs := fun k => if k.val = 0 then ⟨true, 0x80, 0#512, 2, false⟩ else .zero _
    freeIdx := 1 }
  nets := { lineEnabled.nets with mshrExists := true }
  arrays := lineEnabled.arrays

theorem lineEnabled_same : lineEnabled.SameButMshrs lineEnabledBusy := ⟨rfl, rfl, rfl⟩

theorem sharedRead_served_alike :
    ∃ n', lineEnabledBusy.Settles ⟨sharedRead.drive, sharedRead.tagX, n'⟩ ∧
      (lineEnabled.step sharedRead).ServedAlike
        (lineEnabledBusy.step ⟨sharedRead.drive, sharedRead.tagX, n'⟩) := by
  obtain ⟨⟨n', hsettles⟩, hserved⟩ := WideSystem.hits_served_alike lineEnabled_same
    sharedRead_settles sharedRead_completed.hit rfl
  exact ⟨n', hsettles, (hserved n' hsettles).1⟩

end MultiCoreL2Cache
