import Mathlib.Tactic.MkIffOfInductiveProp
import MultiCoreL2Cache.Library.BitSet
import MultiCoreL2Cache.Proof.CombEffects

/-!
# The directory entry of a line

Each line has one packet with its state and the cores that share it. A request that hits the line
computes the next packet from the one it reads. A grant of write permission only adds its core to the
sharers: it is well formed where nobody else holds the line, and in every other case it is not.
-/

namespace MultiCoreL2Cache

open BitSet Packed

variable {cfg : Config} {r : Regs cfg} {c : Cycle cfg} {w : cfg.Way} {p : MetaPacket cfg}
  {core : cfg.Core}

namespace MetaPacket

abbrev Shares (p : MetaPacket cfg) (core : cfg.Core) : Prop := Mem p.sharers core

/-- The encoding of the states that `sys_defs.svh` gives. -/
structure WellFormed (p : MetaPacket cfg) : Prop where
  owned : p.ownerState = .modified ∨ p.ownerState = .exclusive → ∃! core, p.Shares core
  shared : p.ownerState = .shared → ∃ core, p.Shares core
  invalid : p.ownerState = .invalid → ∀ core, ¬p.Shares core

def OnlyShares (p : MetaPacket cfg) (core : cfg.Core) : Prop := ∀ other, p.Shares other → other = core

instance (p : MetaPacket cfg) (core : cfg.Core) : Decidable (p.OnlyShares core) :=
  inferInstanceAs (Decidable (∀ _, _ → _))

theorem or_oneHot_eq_iff : p.sharers ||| oneHot core = oneHot core ↔ p.OnlyShares core :=
  or_twoPow_eq_iff

theorem shares_oneHot (other : cfg.Core) : Mem (oneHot core) other ↔ other = core :=
  mem_twoPow core other

theorem wellFormed_of_owned (hstate : p.ownerState = .modified ∨ p.ownerState = .exclusive)
    (honly : ∃! core, p.Shares core) : p.WellFormed where
  owned _ := honly
  shared h := by rw [h] at hstate; simp at hstate
  invalid h := by rw [h] at hstate; simp at hstate

theorem wellFormed_of_shared (hstate : p.ownerState = .shared) (hshares : ∃ core, p.Shares core) :
    p.WellFormed where
  owned h := by rw [hstate] at h; simp at h
  shared _ := hshares
  invalid h := by rw [hstate] at h; cases h

theorem existsUnique_of_eq_oneHot {sharers : BitVec cfg.numCores} (h : sharers = oneHot core) :
    ∃! other, Mem sharers other := by
  rw [h]
  exact ⟨core, (shares_oneHot core).mpr rfl, fun other => (shares_oneHot other).mp⟩

end MetaPacket

open MetaPacket

/-! ### The six updates -/

theorem modifiedElsewhere_iff :
    modifiedElsewhere c w = true ↔
      (c.readMeta w).ownerState = .modified ∧
        (c.readMeta w).sharers ≠ oneHot c.l2EntryPacket.coreId := by
  simp [modifiedElsewhere]

/-- A snooped line has one owner, and it is another core. -/
theorem owner_of_modifiedElsewhere (hp : (c.readMeta w).WellFormed)
    (hmod : modifiedElsewhere c w = true) :
    ∃ owner, owner ≠ c.l2EntryPacket.coreId ∧ (c.readMeta w).Shares owner ∧
      (c.readMeta w).OnlyShares owner := by
  obtain ⟨hstate, hsharers⟩ := modifiedElsewhere_iff.mp hmod
  obtain ⟨owner, howner, honly⟩ := hp.owned (.inl hstate)
  refine ⟨owner, ?_, howner, honly⟩
  rintro rfl
  exact hsharers (eq_twoPow_iff.mpr ⟨howner, honly⟩)

theorem readMetaUpdate_wellFormed : (readMetaUpdate c w).WellFormed := by
  have hstate : (readMetaUpdate c w).ownerState =
      if (c.readMeta w).sharers ||| oneHot c.l2EntryPacket.coreId = oneHot c.l2EntryPacket.coreId
      then .exclusive else .shared := rfl
  by_cases honly : (c.readMeta w).sharers ||| oneHot c.l2EntryPacket.coreId =
      oneHot c.l2EntryPacket.coreId
  · rw [if_pos honly] at hstate
    exact wellFormed_of_owned (.inr hstate) (existsUnique_of_eq_oneHot honly)
  · rw [if_neg honly] at hstate
    exact wellFormed_of_shared hstate
      ⟨_, (mem_or _ _ _).mpr (.inr ((shares_oneHot _).mpr rfl))⟩

theorem shares_logicalOr {sharers : BitVec cfg.numCores} (h : sharers ≠ 0) :
    Mem (logicalOr core sharers) 0 := by
  have hpos := cfg.numCores_pos
  rw [logicalOr, if_pos (.inr h)]
  simp [Mem, hpos]

theorem readSnoopMeta_wellFormed (hp : (c.readMeta w).WellFormed)
    (hwrite : c.writeMeta w = c.readMeta w) (hmod : modifiedElsewhere c w = true) :
    (readSnoopMeta c w).WellFormed := by
  obtain ⟨owner, -, howner, -⟩ := owner_of_modifiedElsewhere hp hmod
  apply wellFormed_of_shared rfl
  rw [readSnoopMeta, hwrite]
  exact ⟨0, shares_logicalOr (ne_zero_of_mem howner)⟩

theorem evictMeta_wellFormed : (evictMeta c w).WellFormed where
  owned h := by rcases h with h | h <;> cases h
  shared h := nomatch h
  invalid _ core := not_mem_zero core

theorem grantMeta_wellFormed_iff :
    (grantMeta c w).WellFormed ↔ (c.readMeta w).OnlyShares c.l2EntryPacket.coreId := by
  have hshares : (grantMeta c w).Shares c.l2EntryPacket.coreId :=
    (mem_or _ _ _).mpr (.inr ((shares_oneHot _).mpr rfl))
  have hstate : (grantMeta c w).ownerState =
      if (c.readMeta w).sharers ||| oneHot c.l2EntryPacket.coreId = oneHot c.l2EntryPacket.coreId
      then .modified else .invalid := rfl
  rw [← or_oneHot_eq_iff]
  by_cases honly : (c.readMeta w).sharers ||| oneHot c.l2EntryPacket.coreId =
      oneHot c.l2EntryPacket.coreId
  · rw [if_pos honly] at hstate
    refine ⟨fun _ => honly, fun _ => ?_⟩
    exact wellFormed_of_owned (.inl hstate) (existsUnique_of_eq_oneHot honly)
  · rw [if_neg honly] at hstate
    exact ⟨fun hwf => absurd hshares (hwf.invalid hstate _), fun h => absurd h honly⟩

/-- The snooped owner stays in the sharers of a packet that says MODIFIED. -/
theorem writeSnoopMeta_not_wellFormed (hp : (c.readMeta w).WellFormed)
    (hwrite : c.writeMeta w = c.readMeta w) (hmod : modifiedElsewhere c w = true) :
    ¬(writeSnoopMeta c w).WellFormed := by
  intro hwf
  obtain ⟨owner, hne, howner, -⟩ := owner_of_modifiedElsewhere hp hmod
  have hsharers : (writeSnoopMeta c w).sharers =
      oneHot c.l2EntryPacket.coreId ||| (c.readMeta w).sharers := by rw [writeSnoopMeta, hwrite]
  have hcore : (writeSnoopMeta c w).Shares c.l2EntryPacket.coreId := by
    rw [Shares, hsharers]
    exact (mem_or _ _ _).mpr (.inl ((shares_oneHot _).mpr rfl))
  have hother : (writeSnoopMeta c w).Shares owner := by
    rw [Shares, hsharers]
    exact (mem_or _ _ _).mpr (.inr howner)
  exact hne ((hwf.owned (.inl rfl)).unique hother hcore)

theorem hitActive_of_modifiedElsewhere (hrun : stalled r c = false)
    (hkind : c.l2EntryPacket.reqType = .read ∨ c.l2EntryPacket.reqType = .write)
    (hhit : hitAny c = true) (hway : hitWay c = w) (hmod : modifiedElsewhere c w = true) :
    hitActive r c = true := by
  simp [hitActive, readOrWrite, hrun, hkind, hhit, hway, hmod]

/-- What a request that hits way `w` and completes makes of its entry. -/
def updateMeta (c : Cycle cfg) (w : cfg.Way) : MetaPacket cfg :=
  match c.l2EntryPacket.reqType with
  | .read => if modifiedElsewhere c w then readSnoopMeta c w else readMetaUpdate c w
  | .write => if modifiedElsewhere c w then writeSnoopMeta c w else grantMeta c w
  | .upgrade => grantMeta c w
  | .evict => evictMeta c w
  | .unnamed _ => c.readMeta w

theorem requestMeta_eq_updateMeta (hrun : stalled r c = false)
    (hnamed : ∀ code, c.l2EntryPacket.reqType ≠ .unnamed code) (hhit : hitAny c = true)
    (hway : hitWay c = w) (hcompletes : hitActive r c = true → hitAnswered c = true) :
    requestMeta r c = some (updateMeta c w) := by
  have hanswered := fun hkind hmod =>
    hcompletes (hitActive_of_modifiedElsewhere hrun hkind hhit hway hmod)
  unfold requestMeta updateMeta
  rw [hrun, hhit, hway]
  cases hkind : c.l2EntryPacket.reqType with
  | read => cases hmod : modifiedElsewhere c w <;> simp [hanswered (.inl hkind), hmod]
  | write => cases hmod : modifiedElsewhere c w <;> simp [hanswered (.inr hkind), hmod]
  | upgrade => rfl
  | evict => rfl
  | unnamed code => exact absurd hkind (hnamed code)

/-! ### Sequences of requests -/

structure Serve (cfg : Config) where
  regs : Regs cfg
  cycle : Cycle cfg
  nets : Nets cfg

namespace Serve

abbrev kind (v : Serve cfg) : ReqType := v.cycle.l2EntryPacket.reqType

abbrev coreId (v : Serve cfg) : cfg.Core := v.cycle.l2EntryPacket.coreId

/-- `next_write_meta[w]` -/
def packet (v : Serve cfg) (w : cfg.Way) : MetaPacket cfg :=
  (comb v.regs v.cycle v.nets).nextWriteMeta w

/-- One of the four requests hits way `w`, which presents the packet `p`, and completes. -/
@[mk_iff]
structure On (v : Serve cfg) (w : cfg.Way) (p : MetaPacket cfg) : Prop where
  named : ∀ code, v.kind ≠ .unnamed code
  unstalled : stalled v.regs v.cycle = false
  hits : hit v.cycle w = true
  way : hitWay v.cycle = w
  readMeta : v.cycle.readMeta w = p
  writeMeta : v.cycle.writeMeta w = p
  completes : hitActive v.regs v.cycle = true → hitAnswered v.cycle = true

instance (v : Serve cfg) (w : cfg.Way) (p : MetaPacket cfg) : Decidable (v.On w p) :=
  decidable_of_iff' _ (on_iff v w p)

def WritesAlone (v : Serve cfg) (p : MetaPacket cfg) : Prop :=
  v.kind = .write ∨ v.kind = .upgrade → p.OnlyShares v.coreId

/-- A snoop goes to the one core that shares the line, which is not the requester. -/
def SnoopsOwner (v : Serve cfg) (p : MetaPacket cfg) : Prop :=
  hitActive v.regs v.cycle = true →
    ∃ owner, targetCore p = some owner ∧ owner ≠ v.coreId ∧ p.Shares owner ∧ p.OnlyShares owner

variable {v : Serve cfg}

theorem On.hitAny (h : v.On w p) : hitAny v.cycle = true := by
  simp only [MultiCoreL2Cache.hitAny, decide_eq_true_eq]
  exact ⟨w, h.hits⟩

theorem On.packet_eq (h : v.On w p) : v.packet w = updateMeta v.cycle w := by
  have hmeta := requestMeta_eq_updateMeta h.unstalled h.named h.hitAny h.way h.completes
  rw [packet, comb_nextWriteMeta, hmeta, h.way]
  simp

theorem On.answered (h : v.On w p) (hkind : v.kind = .read ∨ v.kind = .write)
    (hmod : modifiedElsewhere v.cycle w = true) : hitAnswered v.cycle = true :=
  h.completes (hitActive_of_modifiedElsewhere h.unstalled hkind h.hitAny h.way hmod)

theorem On.snoopsOwner (h : v.On w p) (hp : p.WellFormed) : v.SnoopsOwner p := by
  intro hactive
  have hmod : modifiedElsewhere v.cycle w = true := by
    simp only [hitActive, Bool.and_eq_true] at hactive
    rw [← h.way]
    exact hactive.2
  have hread := h.readMeta
  obtain ⟨owner, hne, howner, honly⟩ := owner_of_modifiedElsewhere (hread.symm ▸ hp) hmod
  rw [hread] at howner honly
  refine ⟨owner, ?_, hne, howner, honly⟩
  exact lastIndex_eq_some_of_unique howner honly

/-- **One request.** From a well-formed packet the next one is well formed exactly where no other
core loses the line to a write. -/
theorem On.wellFormed_packet_iff (h : v.On w p) (hp : p.WellFormed) :
    (v.packet w).WellFormed ↔ v.WritesAlone p := by
  have hread : (v.cycle.readMeta w).WellFormed := h.readMeta.symm ▸ hp
  have hwrite : v.cycle.writeMeta w = v.cycle.readMeta w := h.writeMeta.trans h.readMeta.symm
  have hsnooped : modifiedElsewhere v.cycle w = true → ¬p.OnlyShares v.coreId := by
    intro hmod honly
    obtain ⟨owner, hne, howner, -⟩ := owner_of_modifiedElsewhere hread hmod
    rw [h.readMeta] at howner
    exact hne (honly owner howner)
  have hgrant : (grantMeta v.cycle w).WellFormed ↔ p.OnlyShares v.coreId := by
    rw [grantMeta_wellFormed_iff, h.readMeta]
  rw [h.packet_eq, updateMeta]
  cases hkind : v.cycle.l2EntryPacket.reqType with
  | read =>
      have halone : v.WritesAlone p := by simp [WritesAlone, hkind]
      refine iff_of_true ?_ halone
      cases hmod : modifiedElsewhere v.cycle w with
      | false => exact readMetaUpdate_wellFormed
      | true => exact readSnoopMeta_wellFormed hread hwrite hmod
  | write =>
      have halone : v.WritesAlone p ↔ p.OnlyShares v.coreId := by simp [WritesAlone, hkind]
      rw [halone]
      cases hmod : modifiedElsewhere v.cycle w with
      | false => exact hgrant
      | true =>
          exact iff_of_false (writeSnoopMeta_not_wellFormed hread hwrite hmod) (hsnooped hmod)
  | upgrade =>
      have halone : v.WritesAlone p ↔ p.OnlyShares v.coreId := by simp [WritesAlone, hkind]
      rw [halone]
      exact hgrant
  | evict =>
      have halone : v.WritesAlone p := by simp [WritesAlone, hkind]
      exact iff_of_true evictMeta_wellFormed halone
  | unnamed code => exact absurd hkind (h.named code)

end Serve

def packets (w : cfg.Way) (p : MetaPacket cfg) (serves : Nat → Serve cfg) : Nat → MetaPacket cfg
  | 0 => p
  | k + 1 => (serves k).packet w

/-- **The directory stays well formed exactly as long as every write comes alone.** -/
theorem directory_wellFormed_iff (w : cfg.Way) (p : MetaPacket cfg) (hp : p.WellFormed)
    (serves : Nat → Serve cfg) (m : Nat)
    (hon : ∀ k < m, (serves k).On w (packets w p serves k)) :
    (∀ k < m, (packets w p serves (k + 1)).WellFormed ∧
        (serves k).SnoopsOwner (packets w p serves k)) ↔
      ∀ k < m, (serves k).WritesAlone (packets w p serves k) := by
  have hwf : (∀ k ≤ m, (packets w p serves k).WellFormed) ↔
      ∀ k < m, (serves k).WritesAlone (packets w p serves k) :=
    Clocked.forall_le_iff hp fun k hk hbefore => (hon k hk).wellFormed_packet_iff hbefore
  rw [← hwf]
  constructor
  · intro hall k hk
    cases k with
    | zero => exact hp
    | succ k => exact (hall k hk).1
  · intro hall k hk
    exact ⟨hall (k + 1) hk, (hon k hk).snoopsOwner (hall k hk.le)⟩

def serve (kind : ReqType) (core : Config.shipped.Core) (p : MetaPacket .shipped) :
    Serve .shipped where
  regs := .reset _
  nets := .zero _
  cycle :=
    { Cycle.idle .shipped with
      l2EntryPacket := ⟨kind, 0#512, p.addr, core⟩
      snoopResp := fun core => ⟨true, p.addr, 0#512, core⟩
      readMeta := fun w => if w = 0 then p else .zero _
      writeMeta := fun _ => p }

/-- Core 0 has the line in MODIFIED; core 1 reads it and evicts it. -/
def readAndEvict : Nat → Serve .shipped
  | 0 => serve .read 1 ⟨true, false, 0b0001, .modified, 0x40⟩
  | _ + 1 => serve .evict 1 ⟨true, false, 0b0001, .shared, 0x40⟩

theorem readAndEvict_wellFormed :
    (∀ k < 2, (packets 0 ⟨true, false, 0b0001, .modified, 0x40⟩ readAndEvict (k + 1)).WellFormed ∧
        (readAndEvict k).SnoopsOwner
          (packets 0 ⟨true, false, 0b0001, .modified, 0x40⟩ readAndEvict k)) ↔
      ∀ k < 2, (readAndEvict k).WritesAlone
        (packets 0 ⟨true, false, 0b0001, .modified, 0x40⟩ readAndEvict k) :=
  directory_wellFormed_iff 0 _ ⟨fun _ => ⟨0, by decide, by decide⟩, by decide, by decide⟩ readAndEvict 2
    (by decide +kernel)

/-- Core 0 upgrades a line that core 1 shares. -/
theorem directory_not_wellFormed :
    ¬∀ (cfg : Config) (w : cfg.Way) (p : MetaPacket cfg) (serves : Nat → Serve cfg) (m : Nat),
      p.WellFormed → (∀ k < m, (serves k).On w (packets w p serves k)) →
      ∀ k < m, (packets w p serves (k + 1)).WellFormed ∧
        (serves k).SnoopsOwner (packets w p serves k) := by
  intro hclaim
  have hpacket := hclaim .shipped 0 ⟨true, false, 0b0011, .shared, 0x40⟩
    (fun _ => serve .upgrade 0 ⟨true, false, 0b0011, .shared, 0x40⟩) 1
    ⟨fun h => absurd h (by decide), fun _ => ⟨0, by decide⟩, by decide⟩ (by decide +kernel) 0 (by decide)
  exact hpacket.1.invalid (by decide +kernel) 1 (by decide +kernel)

end MultiCoreL2Cache
