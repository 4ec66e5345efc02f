import MultiCoreL2Cache.Model.System
import MultiCoreL2Cache.Proof.Directory

/-!
# Lines handed over to the L2

An EVICT brings its line, and the response of a MODIFIED owner brings the line that a READ or WRITE
hit has snooped. The block puts such a line in `next_write_data`. The data memories are written from
`write_data`, which nothing drives, and their enables are raised by refills only, so after the clock
edge the array holds the line where it held it before.
-/

namespace MultiCoreL2Cache

open BitSet MemDP Packed

variable {cfg : Config} {r : Regs cfg} {c : Cycle cfg} {n : Nets cfg} {w : cfg.Way}
  {line : CacheLine}

/-- The newest copy of the line in way `w` comes to the L2. -/
inductive HandsOver (r : Regs cfg) (c : Cycle cfg) (w : cfg.Way) (line : CacheLine) : Prop
  | evict (hstall : stalled r c = false) (hkind : c.l2EntryPacket.reqType = .evict)
      (hhit : hitAny c = true) (hway : hitWay c = w) (hline : c.l2EntryPacket.cacheLine = line)
  | snoop (hactive : hitActive r c = true) (hanswered : hitAnswered c = true)
      (hway : hitWay c = w) (hline : answerData c (targetCore (c.readMeta w)) = line)

def requestSet (c : Cycle cfg) : cfg.SetIdx :=
  c.l2EntryPacket.targetAddr.l2SetIdx.setWidth cfg.numSetsBits

def refillSet (r : Regs cfg) : cfg.SetIdx :=
  (mshrAt r.mshrs r.waitIdx).addr.l2SetIdx.setWidth cfg.numSetsBits

def NewerThanDram (p : MetaPacket cfg) (core : cfg.Core) : Prop :=
  p.dirty = true ∨ (p.ownerState = .modified ∧ p.Shares core ∧ p.OnlyShares core)

/-- The clock edge stores `line` in way `w` at the set of the request, changes no other way, and the
packet computed for the line keeps it from being dropped. -/
structure Keeps (a : Arrays cfg) (r : Regs cfg) (c : Cycle cfg) (n : Nets cfg) (w : cfg.Way)
    (line : CacheLine) : Prop where
  stored : ∃ i : Fin cfg.numSets, i.val = (requestSet c).toNat ∧
    (a.edge false c.toUndriven (comb r c n)).data w i = line
  others : ∀ other ≠ w, (a.edge false c.toUndriven (comb r c n)).data other = a.data other
  newer : NewerThanDram ((comb r c n).nextWriteMeta w) c.l2EntryPacket.coreId

def RefillWrites (r : Regs cfg) (c : Cycle cfg) (w : cfg.Way) (i : Fin cfg.numSets) : Prop :=
  c.rPacket.rValid = true ∧ w = lruWay r ∧ i.val = (refillSet r).toNat

instance (r : Regs cfg) (c : Cycle cfg) (w : cfg.Way) (i : Fin cfg.numSets) :
    Decidable (RefillWrites r c w i) := instDecidableAnd

theorem writes_iff (i : Fin cfg.numSets) :
    ((comb r c n).writeEn w = true ∧ i.val = ((comb r c n).writeAddr w).toNat) ↔
      RefillWrites r c w i := by
  rw [comb_writeEn, comb_writeAddr]
  unfold RefillWrites refillSet
  by_cases hway : c.rPacket.rValid = true ∧ w = lruWay r
  · simp [hway.1, hway.2]
  · have hquiet : ¬(c.rPacket.rValid && decide (w = lruWay r)) = true := by simpa using hway
    exact iff_of_false (fun h => hquiet h.1) fun h => hway ⟨h.1, h.2.1⟩

/-- The only write to the data memories is that of a refill, from the undriven `write_data`. -/
theorem posedge_dataWrite_apply (data : MemData 512 cfg.numSets) (i : Fin cfg.numSets) :
    posedge false (dataWrite c.toUndriven (comb r c n) w) data i =
      if RefillWrites r c w i then c.writeData w else data i :=
  (posedge_apply _ data i).trans (if_congr (writes_iff i) rfl rfl)

theorem edge_data_apply (a : Arrays cfg) (i : Fin cfg.numSets) :
    (a.edge false c.toUndriven (comb r c n)).data w i =
      if RefillWrites r c w i then c.writeData w else a.data w i :=
  posedge_dataWrite_apply (a.data w) i

/-! ### The metadata -/

theorem newer_evict (hway : hitWay c = w) (hstall : stalled r c = false)
    (hkind : c.l2EntryPacket.reqType = .evict) :
    NewerThanDram ((comb r c n).nextWriteMeta w) c.l2EntryPacket.coreId := by
  have hmeta : requestMeta r c = some (evictMeta c w) := by
    simp [requestMeta, hstall, hkind, hway]
  rw [comb_nextWriteMeta, hmeta, hway]
  exact .inl (by simp [evictMeta])

theorem newer_snoop_iff (hway : hitWay c = w) (hactive : hitActive r c = true)
    (hanswered : hitAnswered c = true) :
    NewerThanDram ((comb r c n).nextWriteMeta w) c.l2EntryPacket.coreId ↔
      c.l2EntryPacket.reqType = .write ∧ (c.writeMeta w).OnlyShares c.l2EntryPacket.coreId := by
  simp only [hitActive, readOrWrite, Bool.and_eq_true, Bool.not_eq_true', decide_eq_true_eq]
    at hactive
  obtain ⟨⟨⟨hstall, hkind⟩, hhit⟩, hmod⟩ := hactive
  rw [hway] at hmod
  rcases hkind with hread | hwrite
  · -- a READ clears the dirty bit and leaves the line SHARED
    have hmeta : requestMeta r c = some (readSnoopMeta c w) := by
      simp [requestMeta, hstall, hread, hhit, hway, hmod, hanswered]
    rw [comb_nextWriteMeta, hmeta, hway, hread]
    simp [NewerThanDram, readSnoopMeta]
  · have hmeta : requestMeta r c = some (writeSnoopMeta c w) := by
      simp [requestMeta, hstall, hwrite, hhit, hway, hmod, hanswered]
    rw [comb_nextWriteMeta, hmeta, hway]
    simp only [if_true, Option.getD_some, hwrite, true_and]
    have hdirty : (writeSnoopMeta c w).dirty = false := rfl
    have hstate : (writeSnoopMeta c w).ownerState = .modified := rfl
    have hshares : ∀ core, (writeSnoopMeta c w).Shares core ↔
        core = c.l2EntryPacket.coreId ∨ (c.writeMeta w).Shares core := by
      intro core
      exact (mem_or _ _ _).trans (or_congr_left (MetaPacket.shares_oneHot core))
    constructor
    · rintro (hd | ⟨-, -, honly⟩)
      · rw [hdirty] at hd
        cases hd
      · exact fun core hcore => honly core ((hshares core).mpr (.inr hcore))
    · intro honly
      refine .inr ⟨hstate, (hshares _).mpr (.inl rfl), fun core hcore => ?_⟩
      rcases (hshares core).mp hcore with heq | hold
      · exact heq
      · exact honly core hold

/-! ### When a line is kept -/

def LeavesNewer (c : Cycle cfg) (w : cfg.Way) : Prop :=
  c.l2EntryPacket.reqType = .evict ∨
    (c.l2EntryPacket.reqType = .write ∧ (c.writeMeta w).OnlyShares c.l2EntryPacket.coreId)

/-- The line is in the array before the clock edge, or a refill of the same cell stores it. -/
def AlreadyThere (a : Arrays cfg) (r : Regs cfg) (c : Cycle cfg) (w : cfg.Way) (line : CacheLine) :
    Prop :=
  ∃ i : Fin cfg.numSets, i.val = (requestSet c).toNat ∧
    line = if RefillWrites r c w i then c.writeData w else a.data w i

def RefillHarmless (a : Arrays cfg) (r : Regs cfg) (c : Cycle cfg) (w : cfg.Way) : Prop :=
  ∀ other ≠ w, ∀ i, RefillWrites r c other i → c.writeData other = a.data other i

theorem newer_iff (h : HandsOver r c w line) :
    NewerThanDram ((comb r c n).nextWriteMeta w) c.l2EntryPacket.coreId ↔ LeavesNewer c w := by
  cases h with
  | evict hstall hkind _ hway _ =>
      exact iff_of_true (newer_evict hway hstall hkind) (.inl hkind)
  | snoop hactive hanswered hway _ =>
      rw [newer_snoop_iff hway hactive hanswered, LeavesNewer, or_iff_right]
      intro hkind
      simp [hitActive, readOrWrite, hkind] at hactive

/-- **A handed-over line is kept exactly where the array has it already.** -/
theorem keeps_iff (a : Arrays cfg) (r : Regs cfg) (c : Cycle cfg) (n : Nets cfg) (w : cfg.Way)
    (line : CacheLine) (h : HandsOver r c w line) :
    Keeps a r c n w line ↔
      LeavesNewer c w ∧ AlreadyThere a r c w line ∧ RefillHarmless a r c w := by
  have hnewer := newer_iff (n := n) h
  constructor
  · rintro ⟨⟨i, hi, hstored⟩, hothers, hnew⟩
    refine ⟨hnewer.mp hnew, ⟨i, hi, ?_⟩, fun other hne j hwrites => ?_⟩
    · rw [← hstored, edge_data_apply]
    · have hsame := congrFun (hothers other hne) j
      rw [edge_data_apply, if_pos hwrites] at hsame
      exact hsame
  · rintro ⟨hleaves, ⟨i, hi, hline⟩, hharmless⟩
    refine ⟨⟨i, hi, ?_⟩, fun other hne => ?_, hnewer.mpr hleaves⟩
    · rw [edge_data_apply, hline]
    · funext j
      rw [edge_data_apply]
      by_cases hwrites : RefillWrites r c other j
      · rw [if_pos hwrites, hharmless other hne j hwrites]
      · rw [if_neg hwrites]

def evictCycle (line : CacheLine) : Cycle .shipped :=
  { Cycle.idle .shipped with
    l2EntryPacket := ⟨.evict, line, 0x40, 0⟩
    readMeta := fun w => if w = 0 then ⟨true, false, 0b0001, .modified, 0x40⟩ else .zero _ }

/-- Every set of way `w` holds the line `w + 5`, so that way 0 has the evicted line already. -/
def filledArrays : Arrays .shipped :=
  { Arrays.zero _ with data := fun w _ => BitVec.ofNat 512 (w.val + 5) }

theorem evictCycle_keeps_iff :
    Keeps filledArrays (.reset .shipped) (evictCycle 5#512) (.zero _) 0 5#512 ↔
      LeavesNewer (evictCycle 5#512) 0 ∧
        AlreadyThere filledArrays (.reset .shipped) (evictCycle 5#512) 0 5#512 ∧
        RefillHarmless filledArrays (.reset .shipped) (evictCycle 5#512) 0 :=
  keeps_iff _ _ _ _ _ _ (.evict (by decide) (by decide) (by decide) (by decide) rfl)

theorem evicted_line_lost :
    ¬∀ (cfg : Config) (a : Arrays cfg) (r : Regs cfg) (c : Cycle cfg) (n : Nets cfg) (w : cfg.Way)
      (line : CacheLine), HandsOver r c w line → Keeps a r c n w line := by
  intro hclaim
  obtain ⟨⟨i, -, hstored⟩, -, -⟩ := hclaim .shipped (.zero _) (.reset _) (evictCycle 5#512)
    (.zero _) 0 5#512 (.evict (by decide) (by decide) (by decide) (by decide) rfl)
  have hquiet : ¬RefillWrites (.reset .shipped) (evictCycle 5#512) 0 i := fun h =>
    absurd h.1 (by decide)
  rw [edge_data_apply, if_neg hquiet] at hstored
  have hne : (0#512 : CacheLine) ≠ 5#512 := by decide +kernel
  exact hne hstored

end MultiCoreL2Cache
