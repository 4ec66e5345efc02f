import MultiCoreL2Cache.Proof.Directory

/-!
# Whom the directory snoops

A request may leave the entry of its line ill formed, but not in every way. Whatever was requested, an
entry that says MODIFIED names some sharer, so that there always is a core to snoop: the one with the
highest number. A WRITE that takes the line from its owner leaves two sharers in a MODIFIED entry. From
then on every WRITE snoops, that of the owner included.
-/

namespace MultiCoreL2Cache

open BitSet MetaPacket Packed

variable {cfg : Config} {c : Cycle cfg} {w : cfg.Way} {p : MetaPacket cfg} {v : Serve cfg}

namespace MetaPacket

/-- What every entry has that requests have left. -/
structure WeaklyFormed (p : MetaPacket cfg) : Prop where
  modified : p.ownerState = .modified → ∃ core, p.Shares core
  exclusive : p.ownerState = .exclusive → ∃! core, p.Shares core
  shared : p.ownerState = .shared → ∃ core, p.Shares core
  invalid : p.ownerState = .invalid → ¬∃! core, p.Shares core

theorem WellFormed.weakly (h : p.WellFormed) : p.WeaklyFormed where
  modified hstate := (h.owned (.inl hstate)).exists
  exclusive hstate := h.owned (.inr hstate)
  shared := h.shared
  invalid hstate := fun hone => by
    obtain ⟨core, hcore⟩ := hone.exists
    exact h.invalid hstate core hcore

/-- Two cores share the line. -/
def Contended (p : MetaPacket cfg) : Prop :=
  ∃ core other, p.Shares core ∧ p.Shares other ∧ core ≠ other

theorem Contended.ne_oneHot (h : p.Contended) (core : cfg.Core) : p.sharers ≠ oneHot core := by
  obtain ⟨a, b, ha, hb, hne⟩ := h
  intro heq
  have honly := (eq_twoPow_iff.mp heq).2
  exact hne ((honly a ha).trans (honly b hb).symm)

end MetaPacket

/-! ### The six updates -/

theorem shares_requester {sharers : BitVec cfg.numCores} (core : cfg.Core) :
    Mem (sharers ||| oneHot core) core :=
  (mem_or _ _ _).mpr (.inr ((shares_oneHot core).mpr rfl))

theorem grantMeta_weaklyFormed : (grantMeta c w).WeaklyFormed := by
  have hstate : (grantMeta c w).ownerState =
      if (c.readMeta w).sharers ||| oneHot c.l2EntryPacket.coreId = oneHot c.l2EntryPacket.coreId
      then .modified else .invalid := rfl
  have hshares : (grantMeta c w).Shares c.l2EntryPacket.coreId := shares_requester _
  by_cases hwrites : (c.readMeta w).sharers ||| oneHot c.l2EntryPacket.coreId =
      oneHot c.l2EntryPacket.coreId
  · rw [if_pos hwrites] at hstate
    constructor <;> rw [hstate] <;> intro h
    · exact ⟨_, hshares⟩
    · cases h
    · cases h
    · cases h
  · rw [if_neg hwrites] at hstate
    constructor <;> rw [hstate] <;> intro h
    · cases h
    · cases h
    · cases h
    · -- one sharer would be the requester, and then the grant would have said MODIFIED
      intro hone
      refine hwrites (eq_twoPow_iff.mpr ⟨hshares, fun other hother => ?_⟩)
      exact hone.unique hother hshares

theorem readSnoopMeta_weaklyFormed (hp : (c.readMeta w).WeaklyFormed)
    (hwrite : c.writeMeta w = c.readMeta w) (hmod : modifiedElsewhere c w = true) :
    (readSnoopMeta c w).WeaklyFormed := by
  obtain ⟨owner, howner⟩ := hp.modified (modifiedElsewhere_iff.mp hmod).1
  have hshares : ∃ core, (readSnoopMeta c w).Shares core := by
    rw [readSnoopMeta, hwrite]
    exact ⟨0, shares_logicalOr (ne_zero_of_mem howner)⟩
  constructor <;> intro h
  · cases h
  · cases h
  · exact hshares
  · cases h

theorem writeSnoopMeta_sharers_eq (hwrite : c.writeMeta w = c.readMeta w) :
    (writeSnoopMeta c w).sharers = (c.readMeta w).sharers ||| oneHot c.l2EntryPacket.coreId := by
  rw [writeSnoopMeta, hwrite]
  exact BitVec.or_comm _ _

theorem writeSnoopMeta_weaklyFormed (hwrite : c.writeMeta w = c.readMeta w) :
    (writeSnoopMeta c w).WeaklyFormed := by
  have hshares : (writeSnoopMeta c w).Shares c.l2EntryPacket.coreId := by
    rw [Shares, writeSnoopMeta_sharers_eq hwrite]
    exact shares_requester _
  constructor <;> intro h
  · exact ⟨_, hshares⟩
  · cases h
  · cases h
  · cases h

theorem updateMeta_weaklyFormed (hp : (c.readMeta w).WeaklyFormed)
    (hwrite : c.writeMeta w = c.readMeta w) : (updateMeta c w).WeaklyFormed := by
  unfold updateMeta
  cases c.l2EntryPacket.reqType with
  | read =>
      cases hmod : modifiedElsewhere c w with
      | false => exact readMetaUpdate_wellFormed.weakly
      | true => exact readSnoopMeta_weaklyFormed hp hwrite hmod
  | write =>
      cases hmod : modifiedElsewhere c w with
      | false => exact grantMeta_weaklyFormed
      | true => exact writeSnoopMeta_weaklyFormed hwrite
  | upgrade => exact grantMeta_weaklyFormed
  | evict => exact evictMeta_wellFormed.weakly
  | unnamed code => exact hp

/-! ### One request -/

namespace Serve

/-- A snoop of the line goes to one of the cores that share it. -/
def SnoopsSharer (v : Serve cfg) (p : MetaPacket cfg) : Prop :=
  hitActive v.regs v.cycle = true → ∃ target, targetCore p = some target ∧ p.Shares target

theorem On.weaklyFormed_packet (h : v.On w p) (hp : p.WeaklyFormed) :
    (v.packet w).WeaklyFormed := by
  rw [h.packet_eq]
  exact updateMeta_weaklyFormed (h.readMeta.symm ▸ hp) (h.writeMeta.trans h.readMeta.symm)

theorem On.hitActive_iff (h : v.On w p) :
    hitActive v.regs v.cycle = true ↔
      (v.kind = .read ∨ v.kind = .write) ∧ p.ownerState = .modified ∧
        p.sharers ≠ oneHot v.coreId := by
  have hread := h.readMeta
  unfold hitActive readOrWrite
  rw [h.unstalled, h.hitAny, h.way, Bool.and_true, Bool.and_eq_true, modifiedElsewhere_iff, hread]
  simp

theorem exists_target (hshares : ∃ core, p.Shares core) :
    ∃ target, targetCore p = some target ∧ p.Shares target := by
  obtain ⟨target, htarget⟩ := Option.isSome_iff_exists.mp (lastIndex_isSome_iff.mpr hshares)
  exact ⟨target, htarget, lastIndex_spec htarget⟩

theorem On.snoopsSharer (h : v.On w p) (hp : p.WeaklyFormed) : v.SnoopsSharer p := fun hactive =>
  exists_target (hp.modified (h.hitActive_iff.mp hactive).2.1)

end Serve

theorem run_weaklyFormed {serves : Nat → Serve cfg} {m : Nat} (hp : p.WellFormed)
    (hon : ∀ k < m, (serves k).On w (packets w p serves k)) :
    ∀ k ≤ m, (packets w p serves k).WeaklyFormed := fun k hk =>
  Clocked.persists (P := fun k => (packets w p serves k).WeaklyFormed) (Nat.zero_le k) hp.weakly
    fun j _ hj hbefore => (hon j (hj.trans_le hk)).weaklyFormed_packet hbefore

/-- **Whatever is requested, a snoop has a target that shares the line.** -/
theorem snoops_have_targets (w : cfg.Way) (p : MetaPacket cfg) (hp : p.WellFormed)
    (serves : Nat → Serve cfg) (m : Nat)
    (hon : ∀ k < m, (serves k).On w (packets w p serves k)) :
    (∀ k ≤ m, (packets w p serves k).WeaklyFormed) ∧
      ∀ k < m, (serves k).SnoopsSharer (packets w p serves k) :=
  ⟨run_weaklyFormed hp hon, fun k hk => (hon k hk).snoopsSharer (run_weaklyFormed hp hon k hk.le)⟩

def modifiedBy0 : MetaPacket .shipped := ⟨true, false, 0b0001, .modified, 0x40⟩

theorem modifiedBy0_wellFormed : modifiedBy0.WellFormed :=
  ⟨fun _ => ⟨0, by decide, by decide⟩, by decide, by decide⟩

/-- Core 1 writes a line that core 0 has in MODIFIED, and writes it again. -/
def writesAgain : Nat → Serve .shipped
  | 0 => serve .write 1 modifiedBy0
  | _ + 1 => serve .write 1 ⟨true, false, 0b0011, .modified, 0x40⟩

theorem writesAgain_on : ∀ k < 2, (writesAgain k).On 0 (packets 0 modifiedBy0 writesAgain k) := by
  decide +kernel

theorem writesAgain_targets :
    (∀ k ≤ 2, (packets 0 modifiedBy0 writesAgain k).WeaklyFormed) ∧
      ∀ k < 2, (writesAgain k).SnoopsSharer (packets 0 modifiedBy0 writesAgain k) :=
  snoops_have_targets 0 modifiedBy0 modifiedBy0_wellFormed writesAgain 2 writesAgain_on

/-! ### A line taken from its owner -/

namespace Serve

/-- A snooped WRITE forgets no sharer. -/
theorem On.packet_of_taken (h : v.On w p) (hwrite : v.kind = .write) (hmod : p.ownerState = .modified)
    (hsharers : p.sharers ≠ oneHot v.coreId) :
    (v.packet w).ownerState = .modified ∧
      (v.packet w).sharers = p.sharers ||| oneHot v.coreId := by
  have hread : v.cycle.readMeta w = p := h.readMeta
  have hsnoops : modifiedElsewhere v.cycle w = true := by
    rw [modifiedElsewhere_iff, hread]
    exact ⟨hmod, hsharers⟩
  have hpacket : v.packet w = writeSnoopMeta v.cycle w := by
    have hkind : v.cycle.l2EntryPacket.reqType = .write := hwrite
    rw [h.packet_eq]
    simp [updateMeta, hkind, hsnoops]
  rw [hpacket, writeSnoopMeta_sharers_eq (h.writeMeta.trans hread.symm), hread]
  exact ⟨rfl, rfl⟩

/-- The request snoops the sharer with the highest number. That may be the requester. -/
structure SnoopsHighest (v : Serve cfg) (p : MetaPacket cfg) : Prop where
  active : hitActive v.regs v.cycle = true
  target : ∃ target, targetCore p = some target ∧ p.Shares target ∧
    ∀ core, p.Shares core → core ≤ target

theorem snoopsHighest_of_active (hactive : hitActive v.regs v.cycle = true)
    (hshares : ∃ core, p.Shares core) : v.SnoopsHighest p where
  active := hactive
  target := by
    obtain ⟨target, htarget, hshared⟩ := exists_target hshares
    exact ⟨target, htarget, hshared, fun core hcore => le_lastIndex htarget hcore⟩

end Serve

/-- A line in MODIFIED that several cores share, `core` among them. -/
structure TakenBy (p : MetaPacket cfg) (core : cfg.Core) : Prop where
  modified : p.ownerState = .modified
  contended : p.Contended
  shares : p.Shares core

theorem takenBy_packet (h : v.On w p) (hwrite : v.kind = .write)
    (hactive : hitActive v.regs v.cycle = true) (hshares : ∃ core, p.Shares core) :
    TakenBy (v.packet w) v.coreId := by
  obtain ⟨-, hmod, hsharers⟩ := h.hitActive_iff.mp hactive
  obtain ⟨hstate, hor⟩ := h.packet_of_taken hwrite hmod hsharers
  have hmem : ∀ core, p.Shares core → (v.packet w).Shares core := fun core hcore => by
    rw [Shares, hor]
    exact (mem_or _ _ _).mpr (.inl hcore)
  have hself : (v.packet w).Shares v.coreId := by
    rw [Shares, hor]
    exact shares_requester _
  refine ⟨hstate, ?_, hself⟩
  by_contra hnone
  have honly : ∀ core, p.Shares core → core = v.coreId := fun core hcore => by
    by_contra hne
    exact hnone ⟨core, v.coreId, hmem core hcore, hself, hne⟩
  obtain ⟨core, hcore⟩ := hshares
  exact hsharers (eq_twoPow_iff.mpr ⟨honly core hcore ▸ hcore, honly⟩)

theorem TakenBy.active {core : cfg.Core} (h : TakenBy p core) (hon : v.On w p)
    (hwrite : v.kind = .write) : hitActive v.regs v.cycle = true :=
  hon.hitActive_iff.mpr ⟨.inr hwrite, h.modified, h.contended.ne_oneHot _⟩

/-- **Once a WRITE has taken a line from its owner, every further WRITE snoops**, whichever core it
comes from: the sharer with the highest number, be it the writer. -/
theorem writes_keep_snooping (w : cfg.Way) (p : MetaPacket cfg) (hp : p.WellFormed)
    (serves : Nat → Serve cfg) (m : Nat)
    (hon : ∀ k < m, (serves k).On w (packets w p serves k))
    (hwrites : ∀ k < m, (serves k).kind = .write)
    (htakes : hitActive (serves 0).regs (serves 0).cycle = true) :
    ∀ k < m, (serves k).SnoopsHighest (packets w p serves k) ∧
      TakenBy (packets w p serves (k + 1)) (serves k).coreId := by
  have hweak : ∀ k ≤ m, (packets w p serves k).WeaklyFormed := run_weaklyFormed hp hon
  have hshares : ∀ k < m, hitActive (serves k).regs (serves k).cycle = true →
      ∃ core, (packets w p serves k).Shares core := fun k hk hactive =>
    (hweak k hk.le).modified ((hon k hk).hitActive_iff.mp hactive).2.1
  have hactive : ∀ k < m, hitActive (serves k).regs (serves k).cycle = true := by
    intro k hk
    induction k with
    | zero => exact htakes
    | succ k ih =>
        have hbefore : k < m := Nat.lt_of_succ_lt hk
        have htaken := takenBy_packet (hon k hbefore) (hwrites k hbefore) (ih hbefore)
          (hshares k hbefore (ih hbefore))
        exact htaken.active (hon (k + 1) hk) (hwrites (k + 1) hk)
  intro k hk
  have hshared := hshares k hk (hactive k hk)
  exact ⟨Serve.snoopsHighest_of_active (hactive k hk) hshared,
    takenBy_packet (hon k hk) (hwrites k hk) (hactive k hk) hshared⟩

theorem writesAgain_snoops :
    (writesAgain 1).SnoopsHighest (packets 0 modifiedBy0 writesAgain 1) ∧
      TakenBy (packets 0 modifiedBy0 writesAgain 2) (writesAgain 1).coreId :=
  writes_keep_snooping 0 modifiedBy0 modifiedBy0_wellFormed writesAgain 2 writesAgain_on
    (by decide) (by decide +kernel) 1 (by decide)

end MultiCoreL2Cache
