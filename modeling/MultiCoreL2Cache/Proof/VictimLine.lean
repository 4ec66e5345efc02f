import MultiCoreL2Cache.Proof.DoubleAllocation
import MultiCoreL2Cache.Proof.Memories

/-!
# The line in a write-back

A refill that evicts a dirty line captures the address and the line that its way presents in the
cycle in which the snoops are answered. It raises the enable of the metadata of its way but drives no
read address, and it does not enable the data, which a data memory then presents as zero. Only a
request that hits the same way in that cycle reads a line, that of its own set.
-/

namespace MultiCoreL2Cache

open MemDP Packed

variable {cfg : Config} {width : Nat} {r : Regs cfg} {c : Cycle cfg} {w : cfg.Way} {addr : Addr}
  {line : CacheLine}

namespace WideSystem

variable {s : WideSystem cfg width} {i : WideInput cfg width} {input : Nat → WideInput cfg width}

/-- The packet that `read_meta_addr[w]` selects. -/
def selected (s : WideSystem cfg width) (i : WideInput cfg width) (w : cfg.Way) : MetaPacket cfg :=
  packetOf ((word (s.arrays.tags w) (i.nets.readMetaAddr w)).getD i.tagX)

/-- The line of way `w` that a hit reads, or zero when there is no hit in `w`. -/
def readLine (s : WideSystem cfg width) (i : WideInput cfg width) (w : cfg.Way) : CacheLine :=
  let c := s.settledCycle i
  if looksUp s.regs c && decide (w = hitWay c) then
    (word (s.arrays.data w) (requestSet c)).getD i.drive.dataX
  else 0#512

end WideSystem

/-- A refill allocates a write-back in the cycle, and the clock edge leaves that of `line` to `addr` in
the slot at `free_idx`. -/
structure WritesBackLine (s : WideSystem cfg width) (i : WideInput cfg width) (addr : Addr)
    (line : CacheLine) : Prop where
  allocates : victimAllocates s.regs (s.settledCycle i) = true
  fills : ∃ slot : Fin cfg.numMshrs, slot.val = s.regs.freeIdx.toNat ∧
    ((s.step i).regs.mshrs slot).WritesBack addr line

/-- What a refill captures of the line it evicts. -/
structure CapturesLine (r : Regs cfg) (c : Cycle cfg) (addr : Addr) (line : CacheLine) : Prop where
  allocates : victimAllocates r c = true
  addr : (victimEntry r c).addr = addr
  data : (victimEntry r c).data = line

/-- The response for the head MSHR is on the bus in the cycles up to `m`. In all but the last of them
the refill waits, and in the last no miss takes its slot. The way it evicts holds a valid, dirty line
that no core has MODIFIED. -/
structure DirtyRefill (s : WideSystem cfg width) (input : Nat → WideInput cfg width) (m : Nat)
    (set : Fin cfg.numSets) : Prop where
  settles : ∀ j ≤ m, (s.run input j).Settles (input j)
  reset : ∀ j ≤ m, (input j).drive.reset = false
  responds : ∀ j ≤ m, (input j).drive.rPacket.rValid = true
  waits : ∀ j < m, (input j).nets.waiting = true
  completes : (input m).nets.waiting = false
  alone : missAllocates s.regs ((s.run input m).settledCycle (input m))
    (input m).nets.mshrExists = false
  freeIdx : s.regs.freeIdx.toNat < cfg.numMshrs
  headSet : headSet s.regs = some set
  valid : (s.stored (lruWay s.regs) set).valid = true
  dirty : (s.stored (lruWay s.regs) set).dirty = true
  notModified : (s.stored (lruWay s.regs) set).ownerState ≠ .modified

/-- The packet selected in way `w` still is that of a dirty line at `addr`, and a hit in `w` reads
`line`; or it names an owner that sends `line`. -/
def Carries (s : WideSystem cfg width) (i : WideInput cfg width) (w : cfg.Way) (addr : Addr)
    (line : CacheLine) : Prop :=
  let q := s.selected i w
  let c := s.settledCycle i
  q.valid = true ∧ q.addr = addr ∧
    if q.ownerState = .modified then
      ∃ core, targetCore q = some core ∧ (c.snoopResp core).valid = true ∧
        (c.snoopResp core).addr = q.addr ∧ (c.snoopResp core).data = line
    else q.dirty = true ∧ allBack c = true ∧ s.readLine i w = line

/-! ### What the way presents -/

namespace WideSystem

variable {s : WideSystem cfg width} {i : WideInput cfg width} {input : Nat → WideInput cfg width}

theorem Settles.readMeta (h : s.Settles i) (hread : i.drive.rPacket.rValid = true) :
    (s.settledCycle i).readMeta (lruWay s.regs) = s.selected i (lruWay s.regs) := by
  have hen : i.nets.readMetaEn (lruWay s.regs) = true := by
    rw [← h.nets_eq, comb_readMetaEn]
    have hread' : (s.settledCycle i).rPacket.rValid = true := hread
    simp [hread']
  have hport : (s.settledCycle i).readMeta (lruWay s.regs) =
      packetOf ((rdata 0 (s.arrays.tags (lruWay s.regs))
        (wideTagWrite width i.drive.toUndriven i.nets (lruWay s.regs))
        (i.nets.readMetaEn (lruWay s.regs)) (i.nets.readMetaAddr (lruWay s.regs))).getD i.tagX) := rfl
  rw [hport, hen]
  rfl

theorem Settles.readData (h : s.Settles i) (w : cfg.Way) :
    (s.settledCycle i).readData w = s.readLine i w := by
  have hen : i.nets.readEn w =
      (looksUp s.regs (s.settledCycle i) && decide (w = hitWay (s.settledCycle i))) := by
    rw [← congrFun (comb_readEn s.regs (s.settledCycle i) i.nets) w, h.nets_eq]
  have hport : (s.settledCycle i).readData w =
      (rdata 0 (s.arrays.data w) (dataWrite i.drive.toUndriven i.nets w) (i.nets.readEn w)
        (i.nets.readAddr w)).getD i.drive.dataX := rfl
  unfold readLine
  rw [hport, hen]
  by_cases hlook : (looksUp s.regs (s.settledCycle i) &&
      decide (w = hitWay (s.settledCycle i))) = true
  · have haddr : i.nets.readAddr w = requestSet (s.settledCycle i) := by
      rw [← h.nets_eq, comb_readAddr]
      dsimp only
      rw [if_pos hlook]
      rfl
    rw [if_pos hlook, hlook, haddr]
    rfl
  · rw [if_neg hlook, Bool.not_eq_true _ |>.mp hlook]
    rfl

theorem run_regs_of_waits {m : Nat} (hreset : ∀ j < m, (input j).drive.reset = false)
    (hwaits : ∀ j < m, (input j).nets.waiting = true) : (s.run input m).regs = s.regs := by
  refine Clocked.run_keeps (fun s : WideSystem cfg width => s.regs) (Nat.zero_le m) fun j _ hj => ?_
  exact step_regs_of_waiting (hreset j hj) (hwaits j hj)

end WideSystem

/-! ### The write-back -/

theorem capturesLine_modified_iff {q : MetaPacket cfg} (hread : c.rPacket.rValid = true)
    (hmeta : c.readMeta (lruWay r) = q) (hmod : q.ownerState = .modified) :
    CapturesLine r c addr line ↔
      q.valid = true ∧ q.addr = addr ∧ ∃ core, targetCore q = some core ∧
        (c.snoopResp core).valid = true ∧ (c.snoopResp core).addr = q.addr ∧
          (c.snoopResp core).data = line := by
  have hvictim : victimModified c (lruWay r) = q.valid := by simp [victimModified, hmeta, hmod]
  cases hvalid : q.valid with
  | false =>
      have hnone : victimAllocates r c = false := by
        simp [victimAllocates, victimActive, victimDirty, hvictim, hmeta, hvalid]
      refine iff_of_false (fun h => ?_) (by simp)
      rw [h.allocates] at hnone
      cases hnone
  | true =>
      rw [hvalid] at hvictim
      cases htarget : targetCore q with
      | none =>
          have hnone : victimAllocates r c = false := by
            simp [victimAllocates, victimAnswered, hvictim, hmeta, htarget, snoopAnswers]
          refine iff_of_false (fun h => ?_) (by simp)
          rw [h.allocates] at hnone
          cases hnone
      | some core =>
          have hallocates : victimAllocates r c = true ↔
              (c.snoopResp core).valid = true ∧ (c.snoopResp core).addr = q.addr := by
            simp [victimAllocates, victimActive, victimAnswered, hread, hvictim, hmeta, htarget,
              snoopAnswers]
          have hentry : victimEntry r c = ⟨true, (c.snoopResp core).addr, (c.snoopResp core).data,
              (c.snoopResp core).coreId, true⟩ := by
            simp [victimEntry, hvictim, hmeta, htarget]
          constructor
          · rintro ⟨hall, haddr, hdata⟩
            obtain ⟨hresp, hsame⟩ := hallocates.mp hall
            rw [hentry] at haddr hdata
            exact ⟨rfl, hsame.symm.trans haddr, core, rfl, hresp, hsame, hdata⟩
          · rintro ⟨-, haddr, _, ⟨⟩, hresp, hsame, hdata⟩
            refine ⟨hallocates.mpr ⟨hresp, hsame⟩, ?_, ?_⟩ <;> rw [hentry]
            · exact hsame.trans haddr
            · exact hdata

theorem capturesLine_dirty_iff {q : MetaPacket cfg} (hread : c.rPacket.rValid = true)
    (hmeta : c.readMeta (lruWay r) = q) (hmod : q.ownerState ≠ .modified) :
    CapturesLine r c addr line ↔
      q.valid = true ∧ q.addr = addr ∧ q.dirty = true ∧ allBack c = true ∧
        c.readData (lruWay r) = line := by
  have hvictim : victimModified c (lruWay r) = false := by simp [victimModified, hmeta, hmod]
  have hallocates : victimAllocates r c = true ↔
      q.valid = true ∧ q.dirty = true ∧ allBack c = true := by
    simp [victimAllocates, victimActive, victimAnswered, victimDirty, hread, hvictim, hmeta,
      and_assoc]
  have hentry : victimEntry r c =
      ⟨true, q.addr, c.readData (lruWay r), 0, true⟩ := by
    simp [victimEntry, hvictim, hmeta]
  constructor
  · rintro ⟨hall, haddr, hdata⟩
    obtain ⟨hvalid, hdirty, hback⟩ := hallocates.mp hall
    rw [hentry] at haddr hdata
    exact ⟨hvalid, haddr, hdirty, hback, hdata⟩
  · rintro ⟨hvalid, haddr, hdirty, hback, hdata⟩
    refine ⟨hallocates.mpr ⟨hvalid, hdirty, hback⟩, ?_, ?_⟩ <;> rw [hentry]
    · exact haddr
    · exact hdata

theorem capturesLine_iff_carries {s : WideSystem cfg width} {i : WideInput cfg width}
    (hsettles : s.Settles i) (hread : i.drive.rPacket.rValid = true) (addr : Addr)
    (line : CacheLine) :
    CapturesLine s.regs (s.settledCycle i) addr line ↔ Carries s i (lruWay s.regs) addr line := by
  have hread' : (s.settledCycle i).rPacket.rValid = true := hread
  have hmeta := hsettles.readMeta hread
  unfold Carries
  dsimp only
  by_cases hmod : (s.selected i (lruWay s.regs)).ownerState = .modified
  · rw [if_pos hmod]
    exact capturesLine_modified_iff hread' hmeta hmod
  · rw [if_neg hmod, ← hsettles.readData]
    exact capturesLine_dirty_iff hread' hmeta hmod

/-- What is captured is what the clock edge puts in the slot, unless the cycle is frozen or a miss takes
the slot. -/
theorem writesBackLine_iff_captures {s : WideSystem cfg width} {i : WideInput cfg width}
    (hsettles : s.Settles i) (hreset : i.drive.reset = false) (hwaiting : i.nets.waiting = false)
    (hmiss : missAllocates s.regs (s.settledCycle i) i.nets.mshrExists = false)
    (hfree : s.regs.freeIdx.toNat < cfg.numMshrs) (addr : Addr) (line : CacheLine) :
    WritesBackLine s i addr line ↔ CapturesLine s.regs (s.settledCycle i) addr line := by
  have hregs : (s.step i).regs = (comb s.regs (s.settledCycle i) i.nets).next := by
    have hclocked : (s.step i).regs = clocked i.drive.reset s.regs i.nets := rfl
    rw [hclocked, clocked, hreset, hwaiting, hsettles.nets_eq]
    rfl
  have hslot : victimAllocates s.regs (s.settledCycle i) = true →
      ∀ slot : Fin cfg.numMshrs, slot.val = s.regs.freeIdx.toNat →
        (s.step i).regs.mshrs slot = victimEntry s.regs (s.settledCycle i) := by
    intro hvictim slot hval
    rw [hregs, comb_mshrs, hmiss, if_neg Bool.false_ne_true, dramMshrs, if_pos hvictim,
      assign_apply, if_pos hval]
  constructor
  · rintro ⟨hvictim, slot, hval, -, -, haddr, hdata⟩
    rw [hslot hvictim slot hval] at haddr hdata
    exact ⟨hvictim, haddr, hdata⟩
  · rintro ⟨hvictim, haddr, hdata⟩
    have hentry := hslot hvictim ⟨_, hfree⟩ rfl
    refine ⟨hvictim, ⟨_, hfree⟩, rfl, ?_⟩
    rw [hentry]
    exact ⟨(victimEntry_flags hvictim).1, (victimEntry_flags hvictim).2, haddr, hdata⟩

/-- **A write-back carries the victim's line exactly when the way still presents it.** -/
theorem writeBack_carries_iff (s : WideSystem cfg width) (input : Nat → WideInput cfg width)
    (m : Nat) (set : Fin cfg.numSets) (h : DirtyRefill s input m set) :
    WritesBackLine (s.run input m) (input m) (s.stored (lruWay s.regs) set).addr
        (s.arrays.data (lruWay s.regs) set) ↔
      Carries (s.run input m) (input m) (lruWay s.regs) (s.stored (lruWay s.regs) set).addr
        (s.arrays.data (lruWay s.regs) set) := by
  have hregs : (s.run input m).regs = s.regs :=
    WideSystem.run_regs_of_waits (fun j hj => h.reset j hj.le) h.waits
  have hsettles := h.settles m le_rfl
  have hcaptures := writesBackLine_iff_captures hsettles (h.reset m le_rfl) h.completes
    (hregs ▸ h.alone) (hregs ▸ h.freeIdx) (s.stored (lruWay s.regs) set).addr
    (s.arrays.data (lruWay s.regs) set)
  have hcarries := capturesLine_iff_carries hsettles (h.responds m le_rfl)
    (s.stored (lruWay s.regs) set).addr (s.arrays.data (lruWay s.regs) set)
  rw [hregs] at hcarries
  rw [hcaptures, hregs]
  exact hcarries

def dirtyPacket : MetaPacket .shipped := ⟨true, true, 2, .shared, 0x10040⟩

/-- A READ of 0x40 is outstanding. Way 0 of its set holds a dirty line, and is the way last looked up
in that set. -/
def dirtyWay : WideSystem .shipped 40 where
  regs := ((Machine.fresh .shipped).step
    { Cycle.idle .shipped with toDrive := .request .read 0x40 1 }).regs
  nets := { Nets.zero .shipped with readMetaAddr := fun _ => 1 }
  arrays :=
    { data := fun _ set => if set.val = 1 then 5#512 else 0#512
      tags := fun _ set => if set.val = 1 then dirtyPacket.toBits.setWidth 40 else 0 }

def answered : Drive .shipped :=
  { Drive.response .shipped 7#512 with snoopResp := fun core => ⟨true, 0x10040, 0#512, core⟩ }

def refillAnswered (_ : Nat) : WideInput .shipped 40 := dirtyWay.settle answered 0

theorem refillAnswered_dirtyRefill : DirtyRefill dirtyWay refillAnswered 0 ⟨1, by decide⟩ where
  settles j hj := by
    obtain rfl := Nat.le_zero.mp hj
    exact WideSystem.settles_settle _ _ _ (by decide) (by decide)
  reset := by decide +kernel
  responds := by decide +kernel
  waits := by decide +kernel
  completes := by decide +kernel
  alone := by decide +kernel
  freeIdx := by decide +kernel
  headSet := by decide +kernel
  valid := by decide +kernel
  dirty := by decide +kernel
  notModified := by decide +kernel

theorem refillAnswered_carries_iff :
    WritesBackLine (dirtyWay.run refillAnswered 0) (refillAnswered 0)
        (dirtyWay.stored (lruWay dirtyWay.regs) ⟨1, by decide⟩).addr
        (dirtyWay.arrays.data (lruWay dirtyWay.regs) ⟨1, by decide⟩) ↔
      Carries (dirtyWay.run refillAnswered 0) (refillAnswered 0) (lruWay dirtyWay.regs)
        (dirtyWay.stored (lruWay dirtyWay.regs) ⟨1, by decide⟩).addr
        (dirtyWay.arrays.data (lruWay dirtyWay.regs) ⟨1, by decide⟩) :=
  writeBack_carries_iff dirtyWay refillAnswered 0 _ refillAnswered_dirtyRefill

end MultiCoreL2Cache
