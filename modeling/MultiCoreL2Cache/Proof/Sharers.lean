import Mathlib.Data.Finset.Basic
import Mathlib.Data.Fintype.Sets
import MultiCoreL2Cache.Proof.Directory

/-!
# Who holds a line

The sharers of a packet stand for the cores that hold the line. A READ adds its core, a grant of write
permission takes the line from everybody else and an EVICT gives it back. Of the six updates only the
READ without a snoop computes that set whoever holds the line; the others are right where there is
nobody to be forgotten.
-/

namespace MultiCoreL2Cache

open BitSet Packed

variable {cfg : Config} {c : Cycle cfg} {w : cfg.Way} {p : MetaPacket cfg} {core : cfg.Core}

/-- The cores that hold the line after a request of `core`. -/
def holdersAfter (kind : ReqType) (core : cfg.Core) (holders : Finset cfg.Core) :
    Finset cfg.Core :=
  match kind with
  | .read => insert core holders
  | .write => {core}
  | .upgrade => {core}
  | .evict => holders.erase core
  | .unnamed _ => holders

namespace MetaPacket

def sharerSet (p : MetaPacket cfg) : Finset cfg.Core := {core | p.Shares core}

@[simp]
theorem mem_sharerSet : core ∈ p.sharerSet ↔ p.Shares core := by
  simp [sharerSet]

theorem erase_eq_empty_iff : p.sharerSet.erase core = ∅ ↔ p.OnlyShares core := by
  rw [Finset.eq_empty_iff_forall_notMem]
  refine forall_congr' fun other => ?_
  rw [Finset.mem_erase, mem_sharerSet]
  tauto

theorem eq_singleton_iff : insert core p.sharerSet = {core} ↔ p.OnlyShares core := by
  rw [Finset.eq_singleton_iff_unique_mem]
  simp [OnlyShares]

end MetaPacket

open MetaPacket

theorem mem_one_iff : Mem (1 : BitVec cfg.numCores) core ↔ core = 0 := by
  have hone : (1 : BitVec cfg.numCores) = BitVec.twoPow cfg.numCores (0 : cfg.Core).val := by
    rw [Fin.val_zero, BitVec.twoPow_zero]
    rfl
  rw [hone]
  exact mem_twoPow 0 core

/-! ### The six updates -/

theorem sharerSet_or_oneHot {q : MetaPacket cfg} (h : q.sharers = p.sharers ||| oneHot core) :
    q.sharerSet = insert core p.sharerSet := by
  ext other
  rw [mem_sharerSet, Finset.mem_insert, mem_sharerSet, Shares, h]
  exact (mem_or _ _ _).trans ((or_congr_right (shares_oneHot other)).trans or_comm)

theorem readMetaUpdate_sharers :
    (readMetaUpdate c w).sharerSet = insert c.l2EntryPacket.coreId (c.readMeta w).sharerSet :=
  sharerSet_or_oneHot rfl

theorem grantMeta_sharers :
    (grantMeta c w).sharerSet = insert c.l2EntryPacket.coreId (c.readMeta w).sharerSet :=
  sharerSet_or_oneHot rfl

theorem writeSnoopMeta_sharers (hwrite : c.writeMeta w = c.readMeta w) :
    (writeSnoopMeta c w).sharerSet = insert c.l2EntryPacket.coreId (c.readMeta w).sharerSet := by
  refine sharerSet_or_oneHot ?_
  rw [← hwrite]
  exact BitVec.or_comm _ _

theorem evictMeta_sharers : (evictMeta c w).sharerSet = ∅ := by
  ext core
  rw [mem_sharerSet]
  exact iff_of_false (not_mem_zero core) (Finset.notMem_empty core)

theorem readSnoopMeta_sharers (hshared : (c.writeMeta w).sharers ≠ 0) :
    (readSnoopMeta c w).sharerSet = {0} := by
  ext core
  have hsharers : (readSnoopMeta c w).sharers = 1 := if_pos (.inr hshared)
  rw [mem_sharerSet, Finset.mem_singleton, Shares, hsharers]
  exact mem_one_iff

namespace Serve

/-- A READ does not snoop, and any other request comes while no other core holds the line. -/
def KeepsSharers (v : Serve cfg) (p : MetaPacket cfg) : Prop :=
  if v.kind = .read then p.ownerState = .modified → p.sharers = oneHot v.coreId
  else p.OnlyShares v.coreId

instance (v : Serve cfg) (p : MetaPacket cfg) : Decidable (v.KeepsSharers p) :=
  inferInstanceAs (Decidable (if v.kind = .read then p.ownerState = .modified →
    p.sharers = oneHot v.coreId else p.OnlyShares v.coreId))

variable {v : Serve cfg}

theorem On.owner (h : v.On w p) (hanswered : hitAnswered v.cycle = true) :
    ∃ owner, p.Shares owner := by
  unfold hitAnswered snoopAnswers at hanswered
  rw [h.way, h.readMeta] at hanswered
  cases htarget : targetCore p with
  | none =>
      rw [htarget] at hanswered
      cases hanswered
  | some owner => exact ⟨owner, lastIndex_spec htarget⟩

theorem On.sharers_iff (h : v.On w p) :
    (v.packet w).sharerSet = holdersAfter v.kind v.coreId p.sharerSet ↔ v.KeepsSharers p := by
  have hread := h.readMeta
  have hwrite : v.cycle.writeMeta w = v.cycle.readMeta w := h.writeMeta.trans hread.symm
  have hgrant : (grantMeta v.cycle w).sharerSet = {v.coreId} ↔ p.OnlyShares v.coreId := by
    rw [grantMeta_sharers, hread, eq_singleton_iff]
  unfold KeepsSharers Serve.kind
  rw [h.packet_eq, updateMeta]
  cases hkind : v.cycle.l2EntryPacket.reqType with
  | read =>
      rw [if_pos rfl, holdersAfter]
      cases hmod : modifiedElsewhere v.cycle w with
      | false =>
          refine iff_of_true (readMetaUpdate_sharers.trans (by rw [hread])) fun hstate => ?_
          by_contra hsharers
          rw [modifiedElsewhere_iff.mpr (by rw [hread]; exact ⟨hstate, hsharers⟩)] at hmod
          cases hmod
      | true =>
          obtain ⟨hstate, hsharers⟩ := modifiedElsewhere_iff.mp hmod
          rw [hread] at hstate hsharers
          obtain ⟨owner, howner⟩ := h.owner (h.answered (.inl hkind) hmod)
          have hshared : (v.cycle.writeMeta w).sharers ≠ 0 := by
            rw [h.writeMeta]
            exact ne_zero_of_mem howner
          have hzero := readSnoopMeta_sharers hshared
          refine iff_of_false (fun heq => hsharers ?_) fun hkeeps => hsharers (hkeeps hstate)
          -- core 0 would be the requester and the owner
          have hall : ∀ core ∈ insert v.coreId p.sharerSet, core = 0 := by
            intro core hmem
            exact Finset.mem_singleton.mp (hzero ▸ heq ▸ hmem)
          have hcore : v.coreId = 0 := hall _ (Finset.mem_insert_self _ _)
          have honly : ∀ core, p.Shares core → core = v.coreId := by
            intro core hmem
            rw [hcore]
            exact hall core (Finset.mem_insert_of_mem (mem_sharerSet.mpr hmem))
          rw [honly owner howner] at howner
          exact eq_twoPow_iff.mpr ⟨howner, honly⟩
  | write =>
      rw [if_neg (c := ReqType.write = .read) (by simp), holdersAfter]
      cases hmod : modifiedElsewhere v.cycle w with
      | false => exact hgrant
      | true =>
          rw [← eq_singleton_iff, ← hread, ← writeSnoopMeta_sharers hwrite]
          exact Iff.rfl
  | upgrade =>
      rw [if_neg (c := ReqType.upgrade = .read) (by simp), holdersAfter]
      exact hgrant
  | evict =>
      have hnone : (evictMeta v.cycle w).sharerSet = ∅ := evictMeta_sharers
      rw [if_neg (c := ReqType.evict = .read) (by simp), holdersAfter]
      dsimp only
      rw [hnone, eq_comm, erase_eq_empty_iff]
  | unnamed code => exact absurd hkind (h.named code)

end Serve

/-- The cores that hold the line after `k` requests, from the sharers of `p`. -/
def holders (p : MetaPacket cfg) (serves : Nat → Serve cfg) : Nat → Finset cfg.Core
  | 0 => p.sharerSet
  | k + 1 => holdersAfter (serves k).kind (serves k).coreId (holders p serves k)

/-- **The sharers are the cores that hold the line exactly as long as nobody has to be forgotten.** -/
theorem sharers_exact_iff (w : cfg.Way) (p : MetaPacket cfg) (serves : Nat → Serve cfg) (m : Nat)
    (hon : ∀ k < m, (serves k).On w (packets w p serves k)) :
    (∀ k ≤ m, (packets w p serves k).sharerSet = holders p serves k) ↔
      ∀ k < m, (serves k).KeepsSharers (packets w p serves k) := by
  refine Clocked.forall_le_iff rfl fun k hk hbefore => ?_
  rw [← (hon k hk).sharers_iff, holders, ← hbefore]
  rfl

/-- Core 1 reads a line that core 0 has alone, core 1 evicts it while core 0 still has it. -/
def readAndEvictShared : Nat → Serve .shipped
  | 0 => serve .read 1 ⟨true, false, 0b0001, .exclusive, 0x40⟩
  | _ + 1 => serve .evict 1 ⟨true, false, 0b0011, .shared, 0x40⟩

theorem readAndEvictShared_exact_iff :
    (∀ k ≤ 2, (packets 0 ⟨true, false, 0b0001, .exclusive, 0x40⟩ readAndEvictShared k).sharerSet =
        holders ⟨true, false, 0b0001, .exclusive, 0x40⟩ readAndEvictShared k) ↔
      ∀ k < 2, (readAndEvictShared k).KeepsSharers
        (packets 0 ⟨true, false, 0b0001, .exclusive, 0x40⟩ readAndEvictShared k) :=
  sharers_exact_iff 0 _ readAndEvictShared 2 (by decide +kernel)

theorem sharers_not_exact :
    ¬∀ (cfg : Config) (w : cfg.Way) (p : MetaPacket cfg) (serves : Nat → Serve cfg) (m : Nat),
      (∀ k < m, (serves k).On w (packets w p serves k)) →
      (packets w p serves m).sharerSet = holders p serves m := by
  intro hclaim
  have hexact := hclaim .shipped 0 ⟨true, false, 0b0001, .exclusive, 0x40⟩ readAndEvictShared 2
    (by decide +kernel)
  exact absurd hexact (by decide +kernel)

end MultiCoreL2Cache
