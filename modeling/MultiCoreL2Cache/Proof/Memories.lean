import MultiCoreL2Cache.Library.Settling
import MultiCoreL2Cache.Model.WideSystem
import MultiCoreL2Cache.Proof.Blind
import MultiCoreL2Cache.Proof.HandOver

/-!
# What a clock edge stores

A data memory is written by a refill only, a tag memory only by a request that raises its enable. Both
writes are made whether or not the cache is frozen, and what they store comes from ports that nothing
drives. The address of a data write is the set of the refill; the address of a tag write is a latch
that only refills set.
-/

namespace MultiCoreL2Cache

open MemDP Packed

variable {cfg : Config} {width : Nat} {r : Regs cfg} {c : Cycle cfg} {n : Nets cfg} {w : cfg.Way}

/-- `write_meta_addr[w]` after an evaluation that found it at `n`. -/
def tagSet (r : Regs cfg) (c : Cycle cfg) (n : Nets cfg) (w : cfg.Way) : cfg.SetIdx :=
  if c.rPacket.rValid && decide (w = lruWay r) then refillSet r else n.writeMetaAddr w

def TagWrites (r : Regs cfg) (c : Cycle cfg) (n : Nets cfg) (w : cfg.Way) (i : Fin cfg.numSets) :
    Prop :=
  writesMeta r c = true ∧ w = hitWay c ∧ i.val = (tagSet r c n w).toNat

instance (r : Regs cfg) (c : Cycle cfg) (n : Nets cfg) (w : cfg.Way) (i : Fin cfg.numSets) :
    Decidable (TagWrites r c n w i) := instDecidableAnd

/-- What `write_meta[w]` stores in a tag memory of the width. -/
def tagWord (width : Nat) (u : Undriven cfg) (w : cfg.Way) : BitVec width :=
  (u.writeMeta w).toBits.setWidth width

theorem comb_tagSet : (comb r c n).writeMetaAddr w = tagSet r c n w := by
  rw [comb_writeMetaAddr]
  rfl

theorem tagSet_of_not_rValid (hread : c.rPacket.rValid = false) :
    tagSet r c n w = n.writeMetaAddr w := by
  rw [tagSet, hread]
  rfl

theorem tagWrites_iff (i : Fin cfg.numSets) :
    ((comb r c n).writeMetaEn w = true ∧ i.val = ((comb r c n).writeMetaAddr w).toNat) ↔
      TagWrites r c n w i := by
  rw [comb_writeMetaEn, comb_tagSet]
  simp [TagWrites, and_assoc]

/-! ### What a request leaves enabled -/

/-- Both memories of way `w`, and no others, are read in the set of the request. -/
structure LeftOn (n : Nets cfg) (c : Cycle cfg) (w : cfg.Way) : Prop where
  kind : c.l2EntryPacket.reqType = .read ∨ c.l2EntryPacket.reqType = .write
  readEn : n.readEn = fun x => decide (x = w)
  readMetaEn : n.readMetaEn = fun x => decide (x = w)
  readAddr : n.readAddr w = requestSet c
  readMetaAddr : n.readMetaAddr w = requestSet c

theorem hit_hitWay (h : hitAny c = true) : hit c (hitWay c) = true := by
  have hsome : (lastIndex (hit c)).isSome = true :=
    lastIndex_isSome_iff.mpr (by simpa [hitAny] using h)
  obtain ⟨w, hw⟩ := Option.isSome_iff_exists.mp hsome
  rw [hitWay, hw]
  exact lastIndex_spec hw

theorem comb_leftOn (hread : c.rPacket.rValid = false) (hen : (comb r c n).readMetaEn w = true) :
    LeftOn (comb r c n) c w := by
  have hen' := hen
  rw [comb_readMetaEn, hread] at hen'
  simp only [Bool.false_and, Bool.or_false, Bool.and_eq_true, decide_eq_true_eq] at hen'
  obtain ⟨hlook, rfl⟩ := hen'
  have hkind := hlook
  simp only [looksUp, readOrWrite, Bool.and_eq_true, decide_eq_true_eq] at hkind
  refine ⟨hkind.1.2, ?_, ?_, ?_, ?_⟩
  · rw [comb_readEn, hlook]
    simp
  · rw [comb_readMetaEn, hlook, hread]
    simp
  · rw [comb_readAddr, hlook]
    simp [requestSet]
  · rw [comb_readMetaAddr, hlook]
    simp [requestSet]

theorem LeftOn.congr {c' : Cycle cfg} (h : LeftOn n c w)
    (hpacket : c'.l2EntryPacket = c.l2EntryPacket) : LeftOn n c' w := by
  have hset : requestSet c' = requestSet c := by
    unfold requestSet
    rw [hpacket]
  exact ⟨hpacket ▸ h.kind, h.readEn, h.readMetaEn, hset ▸ h.readAddr, hset ▸ h.readMetaAddr⟩

namespace WideArrays

theorem edge_data_apply (a : WideArrays cfg width) (i : Fin cfg.numSets) :
    (a.edge false c.toUndriven (comb r c n)).data w i =
      if RefillWrites r c w i then c.writeData w else a.data w i :=
  posedge_dataWrite_apply (a.data w) i

theorem edge_tags_apply (a : WideArrays cfg width) (i : Fin cfg.numSets) :
    (a.edge false c.toUndriven (comb r c n)).tags w i =
      if TagWrites r c n w i then tagWord width c.toUndriven w else a.tags w i :=
  (posedge_apply (wideTagWrite width c.toUndriven (comb r c n) w) (a.tags w) i).trans
    (if_congr (tagWrites_iff i) rfl rfl)

end WideArrays

namespace WideSystem

variable {s : WideSystem cfg width} {i : WideInput cfg width}

def stored (s : WideSystem cfg width) (w : cfg.Way) (set : Fin cfg.numSets) : MetaPacket cfg :=
  packetOf (s.arrays.tags w set)

/-! ### Settled cycles -/

theorem Settles.settling (h : s.Settles i) :
    Settling.Settles (s.eval i.drive i.tagX) s.nets i.nets := h

theorem Settles.nets_eq (h : s.Settles i) : comb s.regs (s.settledCycle i) i.nets = i.nets := h.2

theorem ports_congr (s : WideSystem cfg width) (d : Drive cfg) (tagX : BitVec width)
    {n n' : Nets cfg} (hen : n'.readEn = n.readEn) (haddr : n'.readAddr = n.readAddr)
    (hmetaEn : n'.readMetaEn = n.readMetaEn) (hmetaAddr : n'.readMetaAddr = n.readMetaAddr) :
    s.cycle d tagX n' = s.cycle d tagX n := by
  simp only [cycle, WideArrays.ports, rdata, hen, haddr, hmetaEn, hmetaAddr]
  rfl

/-- Outside the way that a refill writes, the address of a tag write is the one latched before. -/
theorem Settles.tagSet_eq (h : s.Settles i) :
    tagSet s.regs (s.settledCycle i) i.nets w = tagSet s.regs (s.settledCycle i) s.nets w := by
  have hlatch : (i.drive.rPacket.rValid && decide (w = lruWay s.regs)) = false →
      i.nets.writeMetaAddr w = s.nets.writeMetaAddr w := by
    intro hquiet
    refine h.settling.invariant (fun n => n.writeMetaAddr w = s.nets.writeMetaAddr w) rfl
      fun n hn => ?_
    have haddr : (s.eval i.drive i.tagX n).writeMetaAddr w =
        tagSet s.regs (s.cycle i.drive i.tagX n) n w := comb_tagSet
    have hdrive : (s.cycle i.drive i.tagX n).rPacket = i.drive.rPacket := rfl
    rw [haddr, tagSet, hdrive, if_neg (by simp [hquiet]), hn]
  have hdrive : (s.settledCycle i).rPacket = i.drive.rPacket := rfl
  unfold tagSet
  rw [hdrive]
  by_cases hrefill : (i.drive.rPacket.rValid && decide (w = lruWay s.regs)) = true
  · rw [if_pos hrefill, if_pos hrefill]
  · rw [if_neg hrefill, if_neg hrefill, hlatch (by simpa using hrefill)]

/-! ### What the ways present -/

theorem valid_of_not_enabled {d : Drive cfg} {tagX : BitVec width} (hen : n.readMetaEn w = false) :
    ((s.cycle d tagX n).readMeta w).valid = false := by
  have hport : (s.cycle d tagX n).readMeta w =
      packetOf ((rdata 0 (s.arrays.tags w) (wideTagWrite width d.toUndriven n w) (n.readMetaEn w)
        (n.readMetaAddr w)).getD tagX) := rfl
  rw [hport, hen]
  simp [rdata, packetOf, MetaPacket.ofBits]

/-- Without a lookup and a refill no tag memory is enabled. -/
theorem Settles.blind (h : s.Settles i) (hread : i.drive.rPacket.rValid = false)
    (hlook : looksUp s.regs (s.settledCycle i) = false) : (s.settledCycle i).Blind := by
  intro w
  have hen : i.nets.readMetaEn w = false := by
    have hread' : (s.settledCycle i).rPacket.rValid = false := hread
    rw [← h.nets_eq, comb_readMetaEn]
    simp [hlook, hread']
  exact valid_of_not_enabled hen

/-! ### Where a cycle settles -/

/-- An evaluation after which the block reads what it read before is the last one. -/
theorem settles_eval (s : WideSystem cfg width) (d : Drive cfg) (tagX : BitVec width) (k : Nat)
    (hcycle : s.cycle d tagX (s.eval d tagX ((s.eval d tagX)^[k] s.nets)) =
      s.cycle d tagX ((s.eval d tagX)^[k] s.nets)) :
    s.Settles ⟨d, tagX, s.eval d tagX ((s.eval d tagX)^[k] s.nets)⟩ := by
  refine ⟨⟨k + 1, ?_⟩, ?_⟩ <;> dsimp only
  · rw [Function.iterate_succ_apply']
  · rw [eval, hcycle]
    exact comb_comb _

/-- An evaluation that looks nothing up leaves the read addresses, and enables the way of a refill
only. -/
theorem cycle_eval_eq (s : WideSystem cfg width) (d : Drive cfg) (tagX : BitVec width)
    (hlook : looksUp s.regs (s.cycle d tagX n) = false) (hread : n.readEn = fun _ => false)
    (hmeta : n.readMetaEn = fun w => d.rPacket.rValid && decide (w = lruWay s.regs)) :
    s.cycle d tagX (s.eval d tagX n) = s.cycle d tagX n := by
  apply ports_congr <;> unfold eval
  · rw [comb_readEn, hlook, hread]
    simp only [Bool.false_and]
  · rw [comb_readAddr, hlook]
    simp only [Bool.false_and, Bool.false_eq_true, if_false]
  · rw [comb_readMetaEn, hlook, hmeta]
    simp only [Bool.false_and, Bool.false_or]
    rfl
  · rw [comb_readMetaAddr, hlook]
    simp only [Bool.false_and, Bool.false_eq_true, if_false]

def settle (s : WideSystem cfg width) (d : Drive cfg) (tagX : BitVec width) :
    WideInput cfg width := ⟨d, tagX, s.eval d tagX (s.eval d tagX s.nets)⟩

/-- Without a READ or WRITE the block reads the same in the second evaluation as in every later
one. -/
theorem settles_settle (s : WideSystem cfg width) (d : Drive cfg) (tagX : BitVec width)
    (hread : d.l2EntryPacket.reqType ≠ .read) (hwrite : d.l2EntryPacket.reqType ≠ .write) :
    s.Settles (s.settle d tagX) := by
  have hlook : ∀ n, looksUp s.regs (s.cycle d tagX n) = false := by
    intro n
    simp [looksUp, readOrWrite, cycle, hread, hwrite]
  refine s.settles_eval d tagX 1 (s.cycle_eval_eq d tagX (hlook _) ?_ ?_)
  · rw [Function.iterate_one, eval, comb_readEn, hlook]
    simp only [Bool.false_and]
  · rw [Function.iterate_one, eval, comb_readMetaEn, hlook]
    simp only [Bool.false_and, Bool.false_or]
    rfl

theorem enabled_of_hit {d : Drive cfg} {tagX : BitVec width}
    (h : hit (s.cycle d tagX n) w = true) : n.readMetaEn w = true := by
  by_contra hen
  have hvalid : ((s.cycle d tagX n).readMeta w).valid = false :=
    valid_of_not_enabled (by simpa using hen)
  rw [hit, hvalid, Bool.false_and] at h
  cases h

/-- A request that hits in what was left enabled for it settles at once. -/
theorem cycle_eval_of_looksUp {d : Drive cfg} {tagX : BitVec width}
    (hleft : ∀ w, n.readMetaEn w = true → LeftOn n (s.cycle d tagX n) w)
    (hread : d.rPacket.rValid = false) (hlook : looksUp s.regs (s.cycle d tagX n) = true) :
    s.cycle d tagX (s.eval d tagX n) = s.cycle d tagX n := by
  have hhit : hitAny (s.cycle d tagX n) = true := by
    simp only [looksUp, Bool.and_eq_true] at hlook
    exact hlook.2
  have hleft := hleft _ (enabled_of_hit (hit_hitWay hhit))
  have hread' : (s.cycle d tagX n).rPacket.rValid = false := hread
  apply ports_congr <;> unfold eval
  · rw [comb_readEn, hleft.readEn, hlook]
    simp only [Bool.true_and]
  · rw [comb_readAddr, hlook]
    funext x
    simp only [Bool.true_and, decide_eq_true_eq]
    split
    · rename_i hx
      rw [hx, hleft.readAddr]
      rfl
    · rfl
  · rw [comb_readMetaEn, hleft.readMetaEn, hlook, hread']
    simp only [Bool.true_and, Bool.false_and, Bool.or_false]
  · rw [comb_readMetaAddr, hlook]
    funext x
    simp only [Bool.true_and, decide_eq_true_eq]
    split
    · rename_i hx
      rw [hx, hleft.readMetaAddr]
      rfl
    · rfl

/-- A lookup that hits from the second evaluation on settles there. -/
theorem settles_settle_of_looksUp (s : WideSystem cfg width) (d : Drive cfg) (tagX : BitVec width)
    (hread : d.rPacket.rValid = false)
    (hlook : looksUp s.regs (s.cycle d tagX (s.eval d tagX s.nets)) = true) :
    s.Settles (s.settle d tagX) := by
  refine s.settles_eval d tagX 1 (cycle_eval_of_looksUp (fun w hen => ?_) hread hlook)
  have hen' : (s.eval d tagX s.nets).readMetaEn w = true := hen
  have hleft : LeftOn _ (s.cycle d tagX s.nets) w := comb_leftOn hread hen'
  exact hleft.congr rfl

/-! ### What a cycle of the closed system stores -/

theorem Settles.step_arrays (h : s.Settles i) (hreset : i.drive.reset = false) :
    (s.step i).arrays = s.arrays.edge false (s.settledCycle i).toUndriven
      (comb s.regs (s.settledCycle i) i.nets) := by
  rw [h.nets_eq, ← hreset]
  rfl

theorem Settles.step_data_apply (h : s.Settles i) (hreset : i.drive.reset = false)
    (set : Fin cfg.numSets) :
    (s.step i).arrays.data w set =
      if RefillWrites s.regs (s.settledCycle i) w set then i.drive.writeData w
      else s.arrays.data w set := by
  rw [h.step_arrays hreset]
  exact WideArrays.edge_data_apply _ _

theorem Settles.step_tags_apply (h : s.Settles i) (hreset : i.drive.reset = false)
    (set : Fin cfg.numSets) :
    (s.step i).arrays.tags w set =
      if TagWrites s.regs (s.settledCycle i) s.nets w set then tagWord width i.drive.toUndriven w
      else s.arrays.tags w set := by
  have hwrites : TagWrites s.regs (s.settledCycle i) i.nets w set ↔
      TagWrites s.regs (s.settledCycle i) s.nets w set := by
    unfold TagWrites
    rw [h.tagSet_eq]
  rw [h.step_arrays hreset]
  exact (WideArrays.edge_tags_apply _ _).trans (if_congr hwrites rfl rfl)

end WideSystem

/-! ### Cycles that store nothing new -/

variable {s : WideSystem cfg width} {i : WideInput cfg width}

/-- A cycle that settles, without a reset and without a DRAM response. -/
structure QuietCycle (s : WideSystem cfg width) (i : WideInput cfg width) : Prop where
  settles : s.Settles i
  running : i.drive.reset = false
  noRead : i.drive.rPacket.rValid = false
  noWrite : i.drive.bPacket.bValid = false

/-- At the width of the source every cycle without a reset and a response is one. -/
theorem QuietCycle.ofSystem (s : System cfg) (d : Drive cfg) (hreset : d.reset = false)
    (hread : d.rPacket.rValid = false) (hwrite : d.bPacket.bValid = false) :
    QuietCycle (.ofSystem s) (WideSystem.ofDrive d (s.settled d)) where
  settles := (WideSystem.settles_ofSystem_iff s d _).mpr ((s.settles_iff d).mpr rfl)
  running := hreset
  noRead := hread
  noWrite := hwrite

theorem step_regs_of_waiting (hreset : i.drive.reset = false) (hwaiting : i.nets.waiting = true) :
    (s.step i).regs = s.regs := by
  have hclocked : (s.step i).regs = clocked i.drive.reset s.regs i.nets := rfl
  rw [hclocked, clocked, hreset, hwaiting]
  rfl

/-- Whatever the cycle writes to a tag memory is there already. -/
def TagsRewritten (s : WideSystem cfg width) (i : WideInput cfg width) : Prop :=
  ∀ w set, TagWrites s.regs (s.settledCycle i) s.nets w set →
    tagWord width i.drive.toUndriven w = s.arrays.tags w set

def DataRewritten (s : WideSystem cfg width) (i : WideInput cfg width) : Prop :=
  ∀ w set, RefillWrites s.regs (s.settledCycle i) w set →
    i.drive.writeData w = s.arrays.data w set

theorem tags_kept_iff (hsettles : s.Settles i) (hreset : i.drive.reset = false) :
    (∀ w set, (s.step i).arrays.tags w set = s.arrays.tags w set) ↔ TagsRewritten s i := by
  refine forall_congr' fun w => forall_congr' fun set => ?_
  rw [hsettles.step_tags_apply hreset]
  exact ite_eq_right_iff

theorem data_kept_iff (hsettles : s.Settles i) (hreset : i.drive.reset = false) :
    (∀ w set, (s.step i).arrays.data w set = s.arrays.data w set) ↔ DataRewritten s i := by
  refine forall_congr' fun w => forall_congr' fun set => ?_
  rw [hsettles.step_data_apply hreset]
  exact ite_eq_right_iff

end MultiCoreL2Cache
