import MultiCoreL2Cache.Library.Recency
import MultiCoreL2Cache.Proof.Replacement

/-!
# Least recent use

The counters are meant to evict the least recently used way. Refills rotate them and hits leave them
alone, so they give the order of the refills. That is the order of use as long as a hit only goes to
the way that was used last anyway.
-/

namespace MultiCoreL2Cache

open Recency

variable {cfg : Config} {c : Cycle cfg} {s : Machine cfg} {set : Fin cfg.numSets}

/-- The uses of each set's ways since the last reset, newest first. -/
abbrev Uses (cfg : Config) := Fin cfg.numSets → List cfg.Way

/-- A READ, WRITE or UPGRADE that hits in `set` completes in this cycle. -/
def HitsSet (s : Machine cfg) (c : Cycle cfg) (set : Fin cfg.numSets) : Prop :=
  s.Acts c ∧ stalled s.regs c = false ∧ hitAny c = true ∧
    (c.l2EntryPacket.reqType = .read ∨ c.l2EntryPacket.reqType = .write ∨
      c.l2EntryPacket.reqType = .upgrade) ∧
    c.l2EntryPacket.targetAddr.l2SetIdx.toNat = set

instance (s : Machine cfg) (c : Cycle cfg) (set : Fin cfg.numSets) : Decidable (HitsSet s c set) :=
  instDecidableAnd

def Uses.refilled (o : Uses cfg) (s : Machine cfg) (c : Cycle cfg) : Uses cfg := fun set =>
  if RefillsSet s c set then lruWay s.regs :: o set else o set

/-- The block refills before it looks at the request. -/
def Uses.step (o : Uses cfg) (s : Machine cfg) (c : Cycle cfg) : Uses cfg := fun set =>
  if c.reset then []
  else if HitsSet s c set then hitWay c :: o.refilled s c set
  else o.refilled s c set

abbrev Uses.run (s : Machine cfg) (input : Nat → Cycle cfg) : Nat → Uses cfg :=
  Clocked.history Machine.step Uses.step (fun _ => []) s input

/-- A refill evicts the way whose latest use is the oldest. -/
def EvictsOldest (s : Machine cfg) (o : Uses cfg) (c : Cycle cfg) : Prop :=
  c.rPacket.rValid = true → ∀ set, headSet s.regs = some set → IsOldest (o set) (lruWay s.regs)

def HitsNewest (s : Machine cfg) (o : Uses cfg) (c : Cycle cfg) : Prop :=
  ∀ set, HitsSet s c set → IsNewest (o.refilled s c set) (hitWay c)

/-- Only the set of the request can be hit. -/
theorem hitsNewest_iff (s : Machine cfg) (o : Uses cfg) (c : Cycle cfg) :
    HitsNewest s o c ↔ ∀ h : c.l2EntryPacket.targetAddr.l2SetIdx.toNat < cfg.numSets,
      HitsSet s c ⟨_, h⟩ → IsNewest (o.refilled s c ⟨_, h⟩) (hitWay c) := by
  constructor
  · exact fun hall h => hall ⟨_, h⟩
  · intro hone set hhit
    have hset := hhit.2.2.2.2
    have heq : set = ⟨_, hset ▸ set.isLt⟩ := Fin.ext hset.symm
    rw [heq] at hhit ⊢
    exact hone _ hhit

instance (s : Machine cfg) (o : Uses cfg) (c : Cycle cfg) : Decidable (HitsNewest s o c) :=
  decidable_of_iff' _ (hitsNewest_iff s o c)

/-! ### The order of use rotates with the counters -/

abbrev wayOrder (cfg : Config) : List cfg.Way → List cfg.Way := useOrder (List.finRange cfg.ways)

theorem finRange_pairwise (cfg : Config) : (List.finRange cfg.ways).Pairwise (· < ·) :=
  List.pairwise_lt_finRange cfg.ways

/-- After `n` refills of each set its counters and its order of use have both been rotated `n` times. -/
def Agrees (s : Machine cfg) (o : Uses cfg) : Prop :=
  ∃ n, Rotated s.regs n ∧ ∀ set, wayOrder cfg (o set) = (List.finRange cfg.ways).rotate (n set)

theorem lruWay_head {n : RefillCounts cfg} (hrot : Rotated s.regs n)
    (hset : headSet s.regs = some set) :
    ∃ rest, (List.finRange cfg.ways).rotate (n set) = lruWay s.regs :: rest := by
  have hlt : n set % cfg.ways < cfg.ways := Nat.mod_lt _ cfg.ways_pos
  have hhead : ((List.finRange cfg.ways).rotate (n set)).head? = some (lruWay s.regs) := by
    rw [← List.rotate_mod, List.length_finRange,
      List.head?_rotate (by rw [List.length_finRange]; exact hlt),
      List.getElem?_eq_getElem (by rw [List.length_finRange]; exact hlt), List.getElem_finRange]
    exact congrArg some (Fin.ext (hrot.lruWay_val hset).symm)
  exact List.head?_eq_some_iff.mp hhead

theorem Agrees.evictsOldest {o : Uses cfg} (h : Agrees s o) : EvictsOldest s o c := by
  obtain ⟨n, hrot, horder⟩ := h
  intro _ set hset
  obtain ⟨rest, hrest⟩ := lruWay_head hrot hset
  exact isOldest_of_head (finRange_pairwise cfg) List.mem_finRange ((horder set).trans hrest)

theorem agrees_step {o : Uses cfg} (h : Agrees s o) (hnewest : HitsNewest s o c) :
    Agrees (s.step c) (o.step s c) := by
  obtain ⟨n, hrot, horder⟩ := h
  refine ⟨RefillCounts.step n s c, rotated_step hrot, fun set => ?_⟩
  unfold RefillCounts.step Uses.step
  by_cases hreset : c.reset = true
  · rw [if_pos hreset, if_pos hreset]
    exact (List.rotate_zero _).symm
  · have hrefilled : wayOrder cfg (o.refilled s c set) =
        (List.finRange cfg.ways).rotate (if RefillsSet s c set then n set + 1 else n set) := by
      unfold Uses.refilled
      by_cases hrefill : RefillsSet s c set
      · obtain ⟨rest, hrest⟩ := lruWay_head hrot hrefill.2.2
        rw [if_pos hrefill, if_pos hrefill, wayOrder, useOrder, ← wayOrder, horder, hrest, touch_head,
          ← hrest, List.rotate_rotate]
      · rw [if_neg hrefill, if_neg hrefill, horder]
    rw [if_neg hreset, if_neg hreset, ← hrefilled]
    by_cases hhit : HitsSet s c set
    · rw [if_pos hhit]
      exact useOrder_cons_of_isNewest (finRange_pairwise cfg) List.mem_finRange (hnewest set hhit)
    · rw [if_neg hhit]

/-- **The victim is the least recently used way, as long as hits go to the way used last.** -/
theorem evicts_oldest (s : Machine cfg) (hreset : s.AfterReset) (input : Nat → Cycle cfg) (k : Nat)
    (hnewest : ∀ j < k, HitsNewest (s.run input j) (Uses.run s input j) (input j)) :
    EvictsOldest (s.run input k) (Uses.run s input k) (input k) := by
  have hagrees : Agrees (s.run input k) (Uses.run s input k) := by
    refine Clocked.history_invariant Uses.step _ Agrees HitsNewest ?_
      (fun _ _ _ => agrees_step) hnewest
    refine ⟨fun _ => 0, ?_, fun set => (List.rotate_zero _).symm⟩
    rw [hreset]
    exact rotated_reset cfg
  exact hagrees.evictsOldest

/-- Core 1 misses and its line is refilled in way 0, which it then reads; the next miss in the set is
refilled. -/
def readRefilled : Nat → Cycle .shipped
  | 0 => { Cycle.idle .shipped with toDrive := .request .read 0x40 1 }
  | 1 => { Cycle.idle .shipped with toDrive := .response _ 7#512 }
  | 2 => { Cycle.idle .shipped with
      toDrive := .request .read 0x40 1
      readMeta := fun w => if w = 0 then ⟨true, false, 0b0010, .exclusive, 0x40⟩ else .zero _ }
  | 3 => { Cycle.idle .shipped with toDrive := .request .read 0x10040 1 }
  | 4 => { Cycle.idle .shipped with toDrive := .response _ 9#512 }
  | _ + 5 => .idle _

theorem readRefilled_evictsOldest :
    EvictsOldest ((Machine.fresh .shipped).run readRefilled 4)
      (Uses.run (.fresh _) readRefilled 4) (readRefilled 4) :=
  evicts_oldest _ (Machine.fresh_afterReset _) readRefilled 4 (by decide +kernel)

/-- A READ hits way 0 before the first refill of the set, which evicts way 0 all the same. -/
def readBeforeRefill : Nat → Cycle .shipped
  | 0 => { Cycle.idle .shipped with toDrive := .request .read 0x40 1 }
  | 1 => { Cycle.idle .shipped with
      toDrive := .request .read 0x10040 0
      readMeta := fun w => if w = 0 then ⟨true, false, 0b0001, .exclusive, 0x10040⟩ else .zero _ }
  | 2 => { Cycle.idle .shipped with toDrive := .response _ 7#512 }
  | _ + 3 => .idle _

theorem evicts_used_way :
    ¬∀ (cfg : Config) (s : Machine cfg) (input : Nat → Cycle cfg) (k : Nat), s.AfterReset →
      EvictsOldest (s.run input k) (Uses.run s input k) (input k) := by
  intro hclaim
  have holdest := hclaim .shipped (.fresh _) readBeforeRefill 2 (Machine.fresh_afterReset _)
    (by decide +kernel) ⟨1, by decide⟩ (by decide +kernel)
  have hwrong := holdest 1 (by decide +kernel)
  exact absurd hwrong (by decide +kernel)

end MultiCoreL2Cache
