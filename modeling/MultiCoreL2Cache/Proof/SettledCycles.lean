import MultiCoreL2Cache.Proof.Memories

/-!
# Every cycle settles

What the tag memories present decides which way is looked up, and the way that is looked up is what
the next evaluation enables. That is a loop, and nothing in the block breaks it. It comes to rest all
the same: an evaluation enables the way it looked up and the way of a refill and no other, so after
the first one the lookup can move only to the way of the refill, and from there nowhere else.
-/

namespace MultiCoreL2Cache.WideSystem

variable {cfg : Config} {width : Nat} (s : WideSystem cfg width) (d : Drive cfg)
  (tagX : BitVec width) {n : Nets cfg} {w x : cfg.Way}

/-- The way that an evaluation on `n` looks up. -/
def lookup (n : Nets cfg) : Option cfg.Way :=
  if looksUp s.regs (s.cycle d tagX n) then some (hitWay (s.cycle d tagX n)) else none

/-- Every evaluation enables the tag memory of this way. -/
def refillWay : Option cfg.Way := if d.rPacket.rValid then some (lruWay s.regs) else none

def lookupSet : cfg.SetIdx := d.l2EntryPacket.targetAddr.l2SetIdx.setWidth cfg.numSetsBits

variable {s d tagX}

/-! ### What an evaluation enables -/

theorem lookup_eq_some_iff :
    s.lookup d tagX n = some w ↔
      (looksUp s.regs (s.cycle d tagX n) && decide (w = hitWay (s.cycle d tagX n))) = true := by
  unfold lookup
  cases looksUp s.regs (s.cycle d tagX n) with
  | false => simp
  | true => simp [eq_comm]

theorem refillWay_eq_some_iff :
    s.refillWay d = some w ↔ (d.rPacket.rValid && decide (w = lruWay s.regs)) = true := by
  unfold refillWay
  cases d.rPacket.rValid with
  | false => simp
  | true => simp [eq_comm]

theorem eval_readEn_iff : (s.eval d tagX n).readEn w = true ↔ s.lookup d tagX n = some w := by
  rw [eval, comb_readEn, lookup_eq_some_iff]

theorem eval_readMetaEn_iff :
    (s.eval d tagX n).readMetaEn w = true ↔
      s.lookup d tagX n = some w ∨ s.refillWay d = some w := by
  rw [eval, comb_readMetaEn, lookup_eq_some_iff, refillWay_eq_some_iff, Bool.or_eq_true]
  rfl

theorem eval_readAddr :
    (s.eval d tagX n).readAddr w =
      if s.lookup d tagX n = some w then lookupSet d else n.readAddr w := by
  rw [eval, comb_readAddr]
  exact if_congr lookup_eq_some_iff.symm rfl rfl

theorem eval_readMetaAddr :
    (s.eval d tagX n).readMetaAddr w =
      if s.lookup d tagX n = some w then lookupSet d else n.readMetaAddr w := by
  rw [eval, comb_readMetaAddr]
  exact if_congr lookup_eq_some_iff.symm rfl rfl

/-! ### Where the lookup moves -/

theorem enabled_of_lookup (h : s.lookup d tagX n = some w) : n.readMetaEn w = true := by
  have hlook := lookup_eq_some_iff.mp h
  simp only [looksUp, Bool.and_eq_true, decide_eq_true_eq] at hlook
  obtain ⟨⟨-, hhit⟩, rfl⟩ := hlook
  exact enabled_of_hit (hit_hitWay hhit)

/-- An evaluation looks up the way of the one before it, or the way of the refill. -/
theorem lookup_eval (h : s.lookup d tagX (s.eval d tagX n) = some x) :
    s.lookup d tagX n = some x ∨ s.refillWay d = some x :=
  eval_readMetaEn_iff.mp (enabled_of_lookup h)

theorem readMeta_congr {n' : Nets cfg} (hen : n'.readMetaEn w = n.readMetaEn w)
    (haddr : n'.readMetaAddr w = n.readMetaAddr w) :
    (s.cycle d tagX n').readMeta w = (s.cycle d tagX n).readMeta w := by
  simp only [cycle, WideArrays.ports, MemDP.rdata, hen, haddr]
  rfl

/-- After an evaluation that finds nothing the way of the refill is read as it was before. -/
theorem lookup_eval_eq_none (h : s.lookup d tagX (s.eval d tagX n) = none) :
    s.lookup d tagX (s.eval d tagX (s.eval d tagX n)) = none := by
  by_contra hfound
  obtain ⟨x, hx⟩ := Option.ne_none_iff_exists'.mp hfound
  have hrefill : s.refillWay d = some x := by
    refine (lookup_eval hx).resolve_left ?_
    rw [h]
    exact (Option.some_ne_none x).symm
  have hread : (s.cycle d tagX (s.eval d tagX (s.eval d tagX n))).readMeta x =
      (s.cycle d tagX (s.eval d tagX n)).readMeta x := by
    apply readMeta_congr
    · rw [eval_readMetaEn_iff.mpr (.inr hrefill), eval_readMetaEn_iff.mpr (.inr hrefill)]
    · rw [eval_readMetaAddr, h, if_neg (Option.some_ne_none x).symm]
  have hlook := lookup_eq_some_iff.mp hx
  simp only [looksUp, Bool.and_eq_true, decide_eq_true_eq] at hlook
  obtain ⟨⟨hkind, hhit⟩, hway⟩ := hlook
  have hhit' : hit (s.cycle d tagX (s.eval d tagX n)) x = true := by
    have hhere := hit_hitWay hhit
    rw [← hway, hit, hread] at hhere
    exact hhere
  have hany : hitAny (s.cycle d tagX (s.eval d tagX n)) = true := decide_eq_true ⟨x, hhit'⟩
  have hlook' : looksUp s.regs (s.cycle d tagX (s.eval d tagX n)) = true :=
    (Bool.and_eq_true _ _).mpr ⟨hkind, hany⟩
  rw [lookup, if_pos hlook'] at h
  cases h

/-- Two evaluations that look up the same way leave the block reading the same. -/
theorem cycle_of_lookup_eq (h : s.lookup d tagX (s.eval d tagX n) = s.lookup d tagX n) :
    s.cycle d tagX (s.eval d tagX (s.eval d tagX n)) = s.cycle d tagX (s.eval d tagX n) := by
  apply ports_congr <;> funext w
  · rw [Bool.eq_iff_iff, eval_readEn_iff, eval_readEn_iff, h]
  · rw [eval_readAddr, h, eval_readAddr]
    split <;> rfl
  · rw [Bool.eq_iff_iff, eval_readMetaEn_iff, eval_readMetaEn_iff, h]
  · rw [eval_readMetaAddr, h, eval_readMetaAddr]
    split <;> rfl

/-! ### Where it stops -/

section Stops

variable (s d tagX)

/-- From the way of the refill the lookup stays there or fails. -/
theorem repeats_of_refillWay (h : s.lookup d tagX n = s.refillWay d) :
    s.lookup d tagX (s.eval d tagX n) = s.lookup d tagX n ∨
      s.lookup d tagX (s.eval d tagX n) = none := by
  cases hnext : s.lookup d tagX (s.eval d tagX n) with
  | none => exact .inr rfl
  | some x =>
      refine .inl ?_
      rcases lookup_eval hnext with hsame | hrefill
      · exact hsame.symm
      · rw [h, hrefill]

/-- Within four evaluations the block reads the same twice. -/
theorem cycle_repeats :
    ∃ k ≤ 3, s.cycle d tagX (s.eval d tagX ((s.eval d tagX)^[k] s.nets)) =
      s.cycle d tagX ((s.eval d tagX)^[k] s.nets) := by
  cases hfirst : s.lookup d tagX (s.eval d tagX s.nets) with
  | none =>
      -- nothing was found after one evaluation, so nothing is found after two
      exact ⟨2, by omega, cycle_of_lookup_eq ((lookup_eval_eq_none hfirst).trans hfirst.symm)⟩
  | some x =>
      rcases lookup_eval hfirst with hsame | hrefill
      · exact ⟨1, by omega, cycle_of_lookup_eq (hfirst.trans hsame.symm)⟩
      · rcases repeats_of_refillWay s d tagX (hfirst.trans hrefill.symm) with hsame | hnone
        · exact ⟨2, by omega, cycle_of_lookup_eq hsame⟩
        · exact ⟨3, by omega, cycle_of_lookup_eq ((lookup_eval_eq_none hnone).trans hnone.symm)⟩

theorem settles_settled : s.Settles ⟨d, tagX, s.settled d tagX⟩ := by
  obtain ⟨k, hle, hcycle⟩ := s.cycle_repeats d tagX
  have hsettles := (s.settles_eval d tagX k hcycle).settling
  rw [← Function.iterate_succ_apply' (s.eval d tagX) k s.nets] at hsettles
  exact Settling.settles_of_le hsettles (Nat.succ_le_succ hle)

end Stops

/-- **Every cycle settles, and in one way only.** Whatever the memories hold and whatever a cycle
brings, the loop through the tag memories comes to rest within four evaluations. -/
theorem every_cycle_settles (s : WideSystem cfg width) (i : WideInput cfg width) :
    s.Settles i ↔ i.nets = s.settled i.drive i.tagX := by
  have hsettled := s.settles_settled i.drive i.tagX
  constructor
  · intro h
    exact h.settling.unique hsettled.settling
  · intro h
    have hi : i = ⟨i.drive, i.tagX, s.settled i.drive i.tagX⟩ := by rw [← h]
    rw [hi]
    exact hsettled

end MultiCoreL2Cache.WideSystem
