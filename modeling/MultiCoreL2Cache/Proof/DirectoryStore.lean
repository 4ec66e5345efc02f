import MultiCoreL2Cache.Proof.Directory
import MultiCoreL2Cache.Proof.Lookup

/-!
# Where directory updates go

A request that hits computes a packet for its line. The tag memory takes another one, from ports that
nothing drives, at an address that the request does not set, and for a READ or an answered snoop no
enable is raised at all. So the update is stored only where it is there without having been stored.
-/

namespace MultiCoreL2Cache

open BitSet MetaPacket

variable {cfg : Config} {width : Nat} {a : WideArrays cfg width} {r : Regs cfg} {c : Cycle cfg}
  {n : Nets cfg} {w : cfg.Way} {p q : MetaPacket cfg} {core : cfg.Core}

/-- A request of an unstalled core hits way `w` and completes in a cycle without a DRAM response. -/
structure CompletedHit (r : Regs cfg) (c : Cycle cfg) (n : Nets cfg) (w : cfg.Way) : Prop where
  unstalled : stalled r c = false
  kind : c.l2EntryPacket.reqType ∈ [.read, .write, .upgrade, .evict]
  hit : hitAny c = true
  way : hitWay c = w
  completes : (comb r c n).waiting = false
  noRead : c.rPacket.rValid = false
  noWrite : c.bPacket.bValid = false

/-- After the clock edge the tag memory of the way has the packet computed in the cycle in the set of
the request, and nothing else has changed. -/
structure StoresUpdate (a : WideArrays cfg width) (r : Regs cfg) (c : Cycle cfg) (n : Nets cfg)
    (w : cfg.Way) : Prop where
  stored : ∃ set : Fin cfg.numSets, set.val = (requestSet c).toNat ∧
    packetOf ((a.edge false c.toUndriven (comb r c n)).tags w set) = (comb r c n).nextWriteMeta w
  others : ∀ other (set : Fin cfg.numSets), ¬(other = w ∧ set.val = (requestSet c).toNat) →
    (a.edge false c.toUndriven (comb r c n)).tags other set = a.tags other set

/-! ### What an update records -/

/-- The requester joins the sharers, and the state says whether it is alone. -/
structure Joins (q p : MetaPacket cfg) (core : cfg.Core) (alone together : OwnerState) : Prop where
  dirty : p.dirty = q.dirty
  sharers : ∀ other, p.Shares other ↔ other = core ∨ q.Shares other
  state : p.ownerState = if q.OnlyShares core then alone else together

/-- `p` is what the request of the cycle makes of the entry `q`. -/
def Records (c : Cycle cfg) (w : cfg.Way) (q p : MetaPacket cfg) : Prop :=
  p.valid = q.valid ∧ p.addr = q.addr ∧
    match c.l2EntryPacket.reqType with
    | .read =>
        if modifiedElsewhere c w then
          p.dirty = false ∧ p.ownerState = .shared ∧
            ∀ other, p.Shares other ↔
              Mem (logicalOr c.l2EntryPacket.coreId (c.writeMeta w).sharers) other
        else Joins q p c.l2EntryPacket.coreId .exclusive .shared
    | .write =>
        if modifiedElsewhere c w then
          p.dirty = false ∧ p.ownerState = .modified ∧
            ∀ other, p.Shares other ↔
              other = c.l2EntryPacket.coreId ∨ (c.writeMeta w).Shares other
        else Joins q p c.l2EntryPacket.coreId .modified .invalid
    | .upgrade => Joins q p c.l2EntryPacket.coreId .modified .invalid
    | .evict => p.dirty = true ∧ p.ownerState = .invalid ∧ ∀ other, ¬p.Shares other
    | .unnamed _ => False

/-- The word in a set of way `w` after the clock edge: `write_meta`, which nothing drives, where the
request raises the enable while the latched address is that set. -/
def wordAfter (a : WideArrays cfg width) (r : Regs cfg) (c : Cycle cfg) (n : Nets cfg) (w : cfg.Way)
    (set : Fin cfg.numSets) : BitVec width :=
  if writesMeta r c = true ∧ set.val = (n.writeMetaAddr w).toNat then tagWord width c.toUndriven w
  else a.tags w set

/-- The set of the request exists, what is found there is the update by chance or from before, and
nothing else is stored in another set. -/
structure UpdateThere (a : WideArrays cfg width) (r : Regs cfg) (c : Cycle cfg) (n : Nets cfg)
    (w : cfg.Way) : Prop where
  there : ∃ set : Fin cfg.numSets, set.val = (requestSet c).toNat ∧
    Records c w (c.readMeta w) (packetOf (wordAfter a r c n w set))
  elsewhere : ∀ set : Fin cfg.numSets, set.val ≠ (requestSet c).toNat →
    wordAfter a r c n w set = a.tags w set

theorem packet_eq_iff :
    p = q ↔ p.valid = q.valid ∧ p.addr = q.addr ∧ p.dirty = q.dirty ∧ p.ownerState = q.ownerState ∧
      ∀ other, p.Shares other ↔ q.Shares other := by
  constructor
  · rintro rfl
    exact ⟨rfl, rfl, rfl, rfl, fun _ => Iff.rfl⟩
  · rintro ⟨hvalid, haddr, hdirty, hstate, hsharers⟩
    have hbits : p.sharers = q.sharers := eq_of_mem_iff hsharers
    cases p
    cases q
    simp_all

theorem joins_iff (q p : MetaPacket cfg) (core : cfg.Core) (alone together : OwnerState) :
    p.valid = q.valid ∧ p.addr = q.addr ∧ Joins q p core alone together ↔
      p = { q with
        sharers := q.sharers ||| oneHot core
        ownerState :=
          if q.sharers ||| oneHot core = oneHot core then alone else together } := by
  have hmem : ∀ other, Mem (q.sharers ||| oneHot core) other ↔ other = core ∨ q.Shares other := by
    intro other
    rw [mem_or, shares_oneHot, or_comm]
  rw [packet_eq_iff]
  simp only [or_oneHot_eq_iff, hmem]
  constructor
  · rintro ⟨hvalid, haddr, hdirty, hsharers, hstate⟩
    exact ⟨hvalid, haddr, hdirty, hstate, hsharers⟩
  · rintro ⟨hvalid, haddr, hdirty, hstate, hsharers⟩
    exact ⟨hvalid, haddr, hdirty, hsharers, hstate⟩

/-- `Records` says what the six updates compute. -/
theorem records_iff (hnamed : ∀ code, c.l2EntryPacket.reqType ≠ .unnamed code) :
    Records c w (c.readMeta w) p ↔ p = updateMeta c w := by
  have hjoins := joins_iff (p := p) (c.readMeta w) c.l2EntryPacket.coreId
  unfold Records updateMeta
  cases hkind : c.l2EntryPacket.reqType with
  | read =>
      cases hmod : modifiedElsewhere c w with
      | false => exact hjoins .exclusive .shared
      | true => exact (packet_eq_iff (q := readSnoopMeta c w)).symm
  | write =>
      cases hmod : modifiedElsewhere c w with
      | false => exact hjoins .modified .invalid
      | true =>
          have hmem : ∀ other, (writeSnoopMeta c w).Shares other ↔
              other = c.l2EntryPacket.coreId ∨ (c.writeMeta w).Shares other := fun other =>
            (mem_or _ _ _).trans (or_congr_left (shares_oneHot other))
          refine Iff.trans ?_ (packet_eq_iff (q := writeSnoopMeta c w)).symm
          simp only [hmem]
          exact Iff.rfl
  | upgrade => exact hjoins .modified .invalid
  | evict =>
      have hmem : ∀ other, ¬(evictMeta c w).Shares other := not_mem_zero
      refine Iff.trans ?_ (packet_eq_iff (q := evictMeta c w)).symm
      simp only [hmem, iff_false]
      exact Iff.rfl
  | unnamed code => exact absurd hkind (hnamed code)

namespace CompletedHit

theorem named (h : CompletedHit r c n w) (code : Fin 4) :
    c.l2EntryPacket.reqType ≠ .unnamed code := by
  intro hkind
  have hnamed := h.kind
  rw [hkind] at hnamed
  simp at hnamed

theorem nextWriteMeta_eq (h : CompletedHit r c n w) :
    (comb r c n).nextWriteMeta w = updateMeta c w := by
  have hanswered : hitActive r c = true → hitAnswered c = true := by
    intro hactive
    have hcompletes := h.completes
    rw [comb_waiting, if_pos hactive] at hcompletes
    simpa using hcompletes
  rw [comb_nextWriteMeta, requestMeta_eq_updateMeta h.unstalled h.named h.hit h.way hanswered, h.way]
  simp

theorem edge_tags (h : CompletedHit r c n w) (other : cfg.Way) (set : Fin cfg.numSets) :
    (a.edge false c.toUndriven (comb r c n)).tags other set =
      if other = w then wordAfter a r c n w set else a.tags other set := by
  have hwrites : TagWrites r c n other set ↔
      writesMeta r c = true ∧ other = w ∧ set.val = (n.writeMetaAddr other).toNat := by
    unfold TagWrites
    rw [tagSet_of_not_rValid h.noRead, h.way]
  rw [WideArrays.edge_tags_apply]
  by_cases hother : other = w
  · subst hother
    rw [if_pos rfl]
    exact if_congr (hwrites.trans (by simp)) rfl rfl
  · rw [if_neg hother, if_neg fun h => hother (hwrites.mp h).2.1]

end CompletedHit

/-- **An update of the directory is stored exactly where it is there anyway.** -/
theorem directory_stored_iff (a : WideArrays cfg width) (r : Regs cfg) (c : Cycle cfg) (n : Nets cfg)
    (w : cfg.Way) (h : CompletedHit r c n w) :
    StoresUpdate a r c n w ↔ UpdateThere a r c n w := by
  constructor
  · rintro ⟨⟨set, hset, hstored⟩, hothers⟩
    rw [h.edge_tags, if_pos rfl] at hstored
    have hrecords := (records_iff h.named).mpr (hstored.trans h.nextWriteMeta_eq)
    refine ⟨⟨set, hset, hrecords⟩, fun other hother => ?_⟩
    have hkept := hothers w other fun hsame => hother hsame.2
    rw [h.edge_tags, if_pos rfl] at hkept
    exact hkept
  · rintro ⟨⟨set, hset, hrecords⟩, helsewhere⟩
    refine ⟨⟨set, hset, ?_⟩, fun other set' hapart => ?_⟩
    · rw [h.edge_tags, if_pos rfl]
      exact ((records_iff h.named).mp hrecords).trans h.nextWriteMeta_eq.symm
    · rw [h.edge_tags]
      by_cases hother : other = w
      · rw [if_pos hother, hother]
        exact helsewhere set' fun hsame => hapart ⟨hother, hsame⟩
      · rw [if_neg hother]

/-- `lineStored`, where a refill has left the tag memory of way 0 enabled. -/
def lineEnabled : WideSystem .shipped 40 :=
  { lineStored with
    nets := { Nets.zero .shipped with
      readMetaEn := fun w => decide (w = 0)
      readMetaAddr := fun _ => 1 } }

/-- Core 1 reads the line that core 0 has alone. -/
def sharedRead : WideInput .shipped 40 := lineEnabled.settle (.request .read 0x40 1) 0

theorem sharedRead_settles : lineEnabled.Settles sharedRead :=
  lineEnabled.settles_settle_of_looksUp _ _ rfl (by decide +kernel)

theorem sharedRead_completed :
    CompletedHit lineEnabled.regs (lineEnabled.settledCycle sharedRead) sharedRead.nets 0 where
  unstalled := by decide +kernel
  kind := by decide
  hit := by decide +kernel
  way := by decide +kernel
  completes := by
    rw [sharedRead_settles.nets_eq]
    decide +kernel
  noRead := rfl
  noWrite := rfl

theorem sharedRead_stored_iff :
    StoresUpdate lineEnabled.arrays lineEnabled.regs (lineEnabled.settledCycle sharedRead)
        sharedRead.nets 0 ↔
      UpdateThere lineEnabled.arrays lineEnabled.regs (lineEnabled.settledCycle sharedRead)
        sharedRead.nets 0 :=
  directory_stored_iff _ _ _ _ _ sharedRead_completed

end MultiCoreL2Cache
