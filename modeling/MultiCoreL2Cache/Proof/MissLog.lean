import MultiCoreL2Cache.Model.MissLog
import MultiCoreL2Cache.Proof.HiddenState
import MultiCoreL2Cache.Proof.MshrRing

/-!
# The cache is a log of misses

With its memories connected the cache never hits, and what remains of it is `MissLog`: in every run the
registers, the replacement state aside, are those that the log of the same inputs has.
-/

namespace MultiCoreL2Cache

open Packed Ring

variable {cfg : Config}

namespace MissLog

variable {m : MissLog cfg} {d : Drive cfg} {lrus : Fin cfg.numSets → cfg.Way → cfg.Lru}

/-- A log that has just been started is a cache that has just been reset. -/
theorem regs_start (matched : Bool) :
    Regs.reset cfg = (start matched).regs (Regs.reset cfg).lrus := rfl

/-! ### Slots -/

theorem slot_of_latest {i : Fin cfg.numMshrs} {j : Nat}
    (h : latest cfg.numMshrs i m.accepted.length = some j) :
    ∃ x, m.accepted[j]? = some x ∧ m.slot i = x.entry (decide (m.retired ≤ j)) := by
  obtain ⟨x, hx⟩ : ∃ x, m.accepted[j]? = some x := ⟨_, List.getElem?_eq_getElem (latest_lt h)⟩
  refine ⟨x, hx, ?_⟩
  simp only [slot, h, hx]

theorem slot_of_none {i : Fin cfg.numMshrs}
    (h : latest cfg.numMshrs i m.accepted.length = none) : m.slot i = .zero cfg := by
  simp only [slot, h]

theorem slot_data (i : Fin cfg.numMshrs) : (m.slot i).data = 0#512 := by
  cases h : latest cfg.numMshrs i m.accepted.length with
  | none => rw [slot_of_none h]; rfl
  | some j =>
      obtain ⟨x, -, hslot⟩ := slot_of_latest h
      rw [hslot]
      rfl

/-- The slot that the `p`-th miss goes to. -/
def place (cfg : Config) (p : Nat) : Fin cfg.numMshrs :=
  ⟨p % cfg.numMshrs, Nat.mod_lt _ cfg.numMshrs_pos⟩

variable (lrus) in
theorem mshrAt_place (hle : cfg.numMshrs ≤ 8) (p : Nat) :
    mshrAt (m.regs lrus).mshrs (BitVec.ofNat 3 (p % cfg.numMshrs)) = m.slot (place cfg p) := by
  have hlt : p % cfg.numMshrs < cfg.numMshrs := Nat.mod_lt _ cfg.numMshrs_pos
  have htoNat : (BitVec.ofNat 3 (p % cfg.numMshrs)).toNat = p % cfg.numMshrs := by
    rw [BitVec.toNat_ofNat]
    exact Nat.mod_eq_of_lt (by omega)
  rw [mshrAt_of_lt _ (htoNat.symm ▸ hlt)]
  exact congrArg m.slot (Fin.ext htoNat)

theorem latest_place {p : Nat} (hlt : p < m.accepted.length)
    (hle : m.accepted.length ≤ p + cfg.numMshrs) :
    latest cfg.numMshrs (place cfg p) m.accepted.length = some p :=
  (latest_eq_some_iff cfg.numMshrs_pos rfl).mpr ⟨hlt, hle⟩

/-- The slot of a miss that is not answered. -/
theorem slot_place {p : Nat} {x : Miss cfg} (hp : m.retired ≤ p) (hx : m.accepted[p]? = some x) :
    m.slot (place cfg p) = x.entry true := by
  have hlt : p < m.accepted.length := (List.getElem?_eq_some_iff.mp hx).1
  have hlen := m.length_le
  obtain ⟨y, hy, hslot⟩ := slot_of_latest (latest_place hlt (by omega))
  rw [hx, Option.some.injEq] at hy
  rw [hslot, ← hy, decide_eq_true hp]

/-- The slot that the next miss goes to holds one that is not answered only if all slots do. -/
theorem slot_next_valid : (m.slot (place cfg m.accepted.length)).valid = true ↔ m.Full := by
  have hlen := m.length_le
  have hpos := cfg.numMshrs_pos
  unfold Full
  cases h : latest cfg.numMshrs (place cfg m.accepted.length) m.accepted.length with
  | none =>
      have hshort := (latest_eq_none_iff (place cfg m.accepted.length).isLt).mp h
      have hplace := (place cfg m.accepted.length).isLt
      rw [slot_of_none h]
      exact iff_of_false (by simp [Mshr.zero]) (by omega)
  | some j =>
      obtain ⟨x, -, hslot⟩ := slot_of_latest h
      have hmod : m.accepted.length ≡ j [MOD cfg.numMshrs] := (latest_mod h).symm
      have hin := (latest_eq_some_iff hpos (latest_mod h)).mp h
      have hdvd : cfg.numMshrs ∣ m.accepted.length - j :=
        (Nat.modEq_iff_dvd' (by omega)).mp hmod.symm
      have hfar := Nat.le_of_dvd (by omega) hdvd
      rw [hslot]
      simp only [Miss.entry, decide_eq_true_eq]
      omega

theorem holds_iff (a : Addr) : m.Holds a ↔ ∃ i, (m.slot i).addr = a := by
  have hpos := cfg.numMshrs_pos
  constructor
  · rintro (⟨x, hx, rfl⟩ | ⟨hshort, rfl⟩)
    · obtain ⟨p, hp, rfl⟩ := List.mem_iff_getElem.mp hx
      rw [List.length_drop] at hp
      rw [List.getElem_drop]
      have hlatest := latest_place (m := m) (p := m.accepted.length - cfg.numMshrs + p)
        (by omega) (by omega)
      obtain ⟨y, hy, hslot⟩ := slot_of_latest hlatest
      rw [List.getElem?_eq_getElem (by omega), Option.some.injEq] at hy
      refine ⟨_, (congrArg Mshr.addr hslot).trans ?_⟩
      rw [← hy]
      rfl
    · have hnone : latest cfg.numMshrs m.accepted.length m.accepted.length = none :=
        (latest_eq_none_iff hshort).mpr (Nat.le_refl _)
      refine ⟨⟨m.accepted.length, hshort⟩, ?_⟩
      rw [slot_of_none hnone]
      rfl
  · rintro ⟨i, rfl⟩
    cases h : latest cfg.numMshrs i m.accepted.length with
    | none =>
        have hshort := (latest_eq_none_iff i.isLt).mp h
        have hi := i.isLt
        rw [slot_of_none h]
        exact .inr ⟨by omega, rfl⟩
    | some j =>
        obtain ⟨x, hx, hslot⟩ := slot_of_latest h
        have hin := (latest_eq_some_iff hpos (latest_mod h)).mp h
        rw [hslot]
        refine .inl ⟨x, List.mem_iff_getElem?.mpr ⟨j - (m.accepted.length - cfg.numMshrs), ?_⟩, rfl⟩
        rw [List.getElem?_drop, ← hx]
        congr 1
        omega

/-! ### What the block reads -/

theorem misses_regs (m : MissLog cfg) (d : Drive cfg) :
    misses (m.regs lrus) d.bare = m.asks d := by
  rw [misses_of_blind d.bare_blind]
  rfl

theorem mshrMatch_regs (m : MissLog cfg) (d : Drive cfg) :
    mshrMatch (m.regs lrus) d.bare = decide (m.Holds d.l2EntryPacket.targetAddr) :=
  decide_eq_decide.mpr (holds_iff _).symm

theorem missAllocates_regs (hle : cfg.numMshrs ≤ 8) (m : MissLog cfg) (d : Drive cfg) :
    missAllocates (m.regs lrus) d.bare m.matched = m.accepts d := by
  have hfree : (mshrAt (m.regs lrus).mshrs (m.regs lrus).freeIdx).valid = decide m.Full := by
    have hplace := mshrAt_place (m := m) lrus hle m.accepted.length
    have hvalid : (mshrAt (m.regs lrus).mshrs (m.regs lrus).freeIdx).valid =
        (m.slot (place cfg m.accepted.length)).valid := congrArg Mshr.valid hplace
    rw [hvalid, Bool.eq_iff_iff, decide_eq_true_eq]
    exact slot_next_valid
  unfold missAllocates accepts
  rw [misses_regs, mshrMatch_regs, hfree]

/-- DRAM answers only what is outstanding. -/
def Answers (m : MissLog cfg) (d : Drive cfg) : Prop :=
  d.rPacket.rValid = true ∨ d.bPacket.bValid = true → m.Outstanding

theorem answered_eq (h : m.Answers d) :
    m.answered d = (d.rPacket.rValid || d.bPacket.bValid) := by
  unfold answered
  by_cases hresp : (d.rPacket.rValid || d.bPacket.bValid) = true
  · rw [hresp, Bool.true_and, decide_eq_true (h (by simpa using hresp))]
  · rw [Bool.eq_false_iff.mpr hresp, Bool.false_and]

theorem advance_ofNat (hle : cfg.numMshrs ≤ 8) (p : Nat) :
    advance cfg.numMshrs (BitVec.ofNat 3 (p % cfg.numMshrs)) =
      BitVec.ofNat 3 ((p + 1) % cfg.numMshrs) := by
  have hlt := Nat.mod_lt p cfg.numMshrs_pos
  have htoNat : (BitVec.ofNat 3 (p % cfg.numMshrs)).toNat = p % cfg.numMshrs := by
    rw [BitVec.toNat_ofNat]
    exact Nat.mod_eq_of_lt (by omega)
  rw [advance, htoNat, Nat.mod_add_mod]

theorem nextWaitIdx_regs (hsize : cfg.numMshrs = cfg.ways) (hle : cfg.numMshrs ≤ 8)
    (h : m.Answers d) :
    nextWaitIdx (m.regs lrus) d.bare = BitVec.ofNat 3 (m.retiredAfter d % cfg.numMshrs) := by
  have hadvance := advance_ofNat hle m.retired
  have hwait : (m.regs lrus).waitIdx = BitVec.ofNat 3 (m.retired % cfg.numMshrs) := rfl
  have hr : d.bare.rPacket = d.rPacket := rfl
  have hb : d.bare.bPacket = d.bPacket := rfl
  unfold nextWaitIdx retiredAfter
  rw [answered_eq h, hwait, ← hsize, hadvance, hr, hb]
  cases d.rPacket.rValid <;> cases d.bPacket.bValid <;> rfl

variable (lrus) in
/-- The MSHR that DRAM is asked for is the head of the log. An old entry in that slot, if there is no
head, has been answered, since there is more than one slot. -/
theorem mshrAt_head (hsize : cfg.numMshrs = cfg.ways) (hle : cfg.numMshrs ≤ 8)
    (hone : 1 < cfg.numMshrs) (h : m.Answers d) :
    (mshrAt (m.regs lrus).mshrs (nextWaitIdx (m.regs lrus) d.bare)).valid = (m.head d).isSome ∧
      ∀ x, m.head d = some x →
        mshrAt (m.regs lrus).mshrs (nextWaitIdx (m.regs lrus) d.bare) = x.entry true := by
  rw [nextWaitIdx_regs hsize hle h, mshrAt_place lrus hle]
  unfold head
  cases hx : m.accepted[m.retiredAfter d]? with
  | some x =>
      rw [slot_place (m.retired_le_retiredAfter d) hx]
      refine ⟨rfl, fun y hy => ?_⟩
      rw [Option.some.inj hy]
  | none =>
      have hlen : m.retiredAfter d = m.accepted.length :=
        Nat.le_antisymm (m.retiredAfter_le d) (List.getElem?_eq_none_iff.mp hx)
      have hnotFull : ¬m.Full := by
        have hstep : m.retiredAfter d ≤ m.retired + 1 := by
          unfold retiredAfter
          split <;> omega
        unfold Full
        omega
      rw [hlen]
      refine ⟨?_, fun y hy => nomatch hy⟩
      exact Bool.eq_false_iff.mpr (mt slot_next_valid.mp hnotFull)

/-! ### One step -/

theorem retiredAfter_of_answered (h : m.answered d = true) : m.retiredAfter d = m.retired + 1 :=
  if_pos h

/-- The answered miss is the only one in the slot at `wait_idx`. -/
theorem retiredMshrs_regs (hle : cfg.numMshrs ≤ 8) (h : m.Answers d) {i : Fin cfg.numMshrs} {j : Nat}
    {x : Miss cfg} (hj : latest cfg.numMshrs i m.accepted.length = some j)
    (hx : m.accepted[j]? = some x) :
    retiredMshrs (m.regs lrus) d.bare i = x.entry (decide (m.retiredAfter d ≤ j)) := by
  obtain ⟨y, hy, hslot⟩ := slot_of_latest hj
  obtain rfl : x = y := Option.some.inj (hx.symm.trans hy)
  have hwait : (m.regs lrus).waitIdx.toNat = m.retired % cfg.numMshrs := by
    have hlt := Nat.mod_lt m.retired cfg.numMshrs_pos
    refine (BitVec.toNat_ofNat _ _).trans (Nat.mod_eq_of_lt (by omega))
  have hanswered := answered_eq h
  by_cases hresp : (d.rPacket.rValid || d.bPacket.bValid) = true
  · rw [hresp] at hanswered
    have hout : m.retired < m.accepted.length := h (by simpa using hresp)
    have hlen := m.length_le
    rw [retiredAfter_of_answered hanswered]
    by_cases hi : i.val = m.retired % cfg.numMshrs
    · have hlatest : latest cfg.numMshrs i m.accepted.length = some m.retired :=
        (latest_eq_some_iff cfg.numMshrs_pos hi.symm).mpr ⟨hout, hlen⟩
      obtain rfl : j = m.retired := Option.some.inj (hj.symm.trans hlatest)
      rw [retiredMshrs_self hresp (hi.trans hwait.symm)]
      have hold : (m.regs lrus).mshrs i = x.entry (decide (m.retired ≤ m.retired)) := hslot
      rw [hold, decide_eq_false (Nat.not_succ_le_self _)]
      rfl
    · have hne : j ≠ m.retired := by
        rintro rfl
        exact hi (latest_mod hj).symm
      rw [retiredMshrs_of_ne fun _ => hwait ▸ hi]
      have hold : (m.regs lrus).mshrs i = x.entry (decide (m.retired ≤ j)) := hslot
      rw [hold, decide_eq_decide.mpr (show m.retired ≤ j ↔ m.retired + 1 ≤ j by omega)]
  · have hkeep : m.retiredAfter d = m.retired := if_neg (by rw [hanswered]; exact hresp)
    rw [retiredMshrs_of_ne fun hcontra => absurd hcontra hresp, hkeep]
    exact hslot

variable (lrus) in
theorem retiredMshrs_data (i : Fin cfg.numMshrs) :
    (retiredMshrs (m.regs lrus) d.bare i).data = 0#512 := by
  have hdata : ((m.regs lrus).mshrs i).data = 0#512 := slot_data i
  unfold retiredMshrs retire
  split
  · rw [assign_apply]
    split <;> exact hdata
  · exact hdata

theorem next_slot_of_accepts (haccepts : m.accepts d = true) {i : Fin cfg.numMshrs}
    (hi : i.val = m.accepted.length % cfg.numMshrs) :
    (m.next d).slot i = d.l2EntryPacket.toMiss.entry true := by
  have hafter := accepted_of_accepts haccepts
  have hlatest : latest cfg.numMshrs i (m.next d).accepted.length = some m.accepted.length := by
    rw [hafter, List.length_append, List.length_singleton, hi]
    exact latest_succ_self _ _
  obtain ⟨x, hx, hslot⟩ := slot_of_latest hlatest
  rw [hafter, List.getElem?_concat_length, Option.some.injEq] at hx
  have hretired : (m.next d).retired ≤ m.accepted.length := m.retiredAfter_le d
  rw [hslot, ← hx, decide_eq_true hretired]

/-- A miss that joins does not change what came before it. -/
theorem accepted_next {p : Nat} (hp : p < m.accepted.length) :
    (m.next d).accepted[p]? = m.accepted[p]? := by
  by_cases haccepts : m.accepts d = true
  · rw [accepted_of_accepts haccepts, List.getElem?_append_left hp]
  · rw [accepted_of_not_accepts haccepts]

/-- A miss that joins in another slot leaves this one. -/
theorem latest_next_of_ne {i : Fin cfg.numMshrs}
    (hi : m.accepts d = true → i.val ≠ m.accepted.length % cfg.numMshrs) :
    latest cfg.numMshrs i (m.next d).accepted.length =
      latest cfg.numMshrs i m.accepted.length := by
  by_cases haccepts : m.accepts d = true
  · rw [accepted_of_accepts haccepts, List.length_append, List.length_singleton]
    exact latest_succ_of_ne (hi haccepts)
  · rw [accepted_of_not_accepts haccepts]

theorem next_slot_of_kept (hle : cfg.numMshrs ≤ 8) (h : m.Answers d) {i : Fin cfg.numMshrs}
    (hi : m.accepts d = true → i.val ≠ m.accepted.length % cfg.numMshrs) :
    (m.next d).slot i = retiredMshrs (m.regs lrus) d.bare i := by
  have hlatest := latest_next_of_ne hi
  cases hj : latest cfg.numMshrs i m.accepted.length with
  | none =>
      have hold : (m.regs lrus).mshrs i = .zero cfg := slot_of_none hj
      rw [slot_of_none (hlatest.trans hj)]
      unfold retiredMshrs retire
      split
      · rw [assign_apply, hold]
        split <;> rfl
      · exact hold.symm
  | some j =>
      obtain ⟨x, hx, hslot⟩ := slot_of_latest (hlatest.trans hj)
      have hkept : m.accepted[j]? = some x := (accepted_next (latest_lt hj)).symm.trans hx
      rw [hslot, retiredMshrs_regs hle h hj hkept]
      rfl

theorem comb_mshrs_regs (hle : cfg.numMshrs ≤ 8) {n : Nets cfg} (hexists : n.mshrExists = m.matched)
    (h : m.Answers d) (i : Fin cfg.numMshrs) :
    (comb (m.regs lrus) d.bare n).next.mshrs i = (m.next d).slot i := by
  have hdram : dramMshrs (m.regs lrus) d.bare = retiredMshrs (m.regs lrus) d.bare := by
    rw [dramMshrs, victimAllocates_of_blind d.bare_blind, if_neg Bool.false_ne_true]
  have hfree : (m.regs lrus).freeIdx.toNat = m.accepted.length % cfg.numMshrs := by
    have hlt := Nat.mod_lt m.accepted.length cfg.numMshrs_pos
    exact (BitVec.toNat_ofNat _ _).trans (Nat.mod_eq_of_lt (by omega))
  rw [comb_mshrs, hexists, missAllocates_regs hle, hdram]
  by_cases haccepts : m.accepts d = true
  · rw [if_pos haccepts, assign_apply, hfree]
    by_cases hi : i.val = m.accepted.length % cfg.numMshrs
    · rw [if_pos hi, next_slot_of_accepts haccepts hi]
      have hdata := retiredMshrs_data (m := m) (d := d) lrus i
      unfold missEntry
      rw [hdata]
      rfl
    · rw [if_neg hi, next_slot_of_kept hle h fun _ => hi]
  · rw [if_neg haccepts, next_slot_of_kept hle h fun hcontra => absurd hcontra haccepts]

section Packets

variable (hsize : cfg.numMshrs = cfg.ways) (hle : cfg.numMshrs ≤ 8) (hone : 1 < cfg.numMshrs)
  (h : m.Answers d)
include hsize hle hone h

theorem issuesWrite_regs : issuesWrite (m.regs lrus) d.bare = (m.writeHead d).isSome := by
  obtain ⟨hvalid, hhead⟩ := mshrAt_head lrus hsize hle hone h
  unfold issuesWrite writeHead
  cases hx : m.head d with
  | none => rw [hvalid, hx]; rfl
  | some x =>
      rw [hhead x hx]
      cases hwrite : x.writeReq <;> simp [Miss.entry, hwrite]

theorem issuesRead_regs : issuesRead (m.regs lrus) d.bare = (m.readHead d).isSome := by
  obtain ⟨hvalid, hhead⟩ := mshrAt_head lrus hsize hle hone h
  unfold issuesRead readHead
  cases hx : m.head d with
  | none => rw [hvalid, hx]; rfl
  | some x =>
      rw [hhead x hx]
      cases hwrite : x.writeReq <;> simp [Miss.entry, hwrite]

theorem mshrAt_addr {p : Miss cfg → Bool} {a : Addr}
    (ha : ((m.head d).filter p).map Miss.addr = some a) :
    (mshrAt (m.regs lrus).mshrs (nextWaitIdx (m.regs lrus) d.bare)).addr = a := by
  obtain ⟨x, hx, rfl⟩ := Option.map_eq_some_iff.mp ha
  have hhead := (mshrAt_head lrus hsize hle hone h).2 x (Option.filter_eq_some_iff.mp hx).1
  rw [hhead]
  rfl

theorem comb_arPacket_regs (n : Nets cfg) :
    (comb (m.regs lrus) d.bare n).next.arPacket = ((m.next d).regs lrus).arPacket := by
  have hready : d.bare.arReady = d.arReady := rfl
  have hafter : (m.next d).ar = if d.arReady then (m.readHead d).or m.ar else m.ar := rfl
  have haddr : ∀ a, m.readHead d = some a →
      (mshrAt (m.regs lrus).mshrs (nextWaitIdx (m.regs lrus) d.bare)).addr = a := fun a ha =>
    mshrAt_addr hsize hle hone h ha
  rw [comb_arPacket, issuesRead_regs hsize hle hone h, hready]
  generalize mshrAt (m.regs lrus).mshrs (nextWaitIdx (m.regs lrus) d.bare) = head at haddr ⊢
  simp only [regs, hafter]
  cases d.arReady with
  | false => simp
  | true =>
      cases ha : m.readHead d with
      | none => simp
      | some a => simp [haddr a ha]

theorem comb_awPacket_regs (n : Nets cfg) :
    (comb (m.regs lrus) d.bare n).next.awPacket = ((m.next d).regs lrus).awPacket := by
  have hready : d.bare.awReady = d.awReady := rfl
  have hafter : (m.next d).aw = if d.awReady then (m.writeHead d).or m.aw else m.aw := rfl
  have haddr : ∀ a, m.writeHead d = some a →
      (mshrAt (m.regs lrus).mshrs (nextWaitIdx (m.regs lrus) d.bare)).addr = a := fun a ha =>
    mshrAt_addr hsize hle hone h ha
  rw [comb_awPacket, issuesWrite_regs hsize hle hone h, hready]
  generalize mshrAt (m.regs lrus).mshrs (nextWaitIdx (m.regs lrus) d.bare) = head at haddr ⊢
  simp only [regs, hafter]
  cases d.awReady with
  | false => simp
  | true =>
      cases ha : m.writeHead d with
      | none => simp
      | some a => simp [haddr a ha]

theorem comb_wPacket_regs (n : Nets cfg) :
    (comb (m.regs lrus) d.bare n).next.wPacket = ((m.next d).regs lrus).wPacket := by
  have hready : d.bare.wReady = d.wReady := rfl
  have hafter : (m.next d).w = (m.w || (d.wReady && (m.writeHead d).isSome)) := rfl
  have hdata : (mshrAt (m.regs lrus).mshrs (nextWaitIdx (m.regs lrus) d.bare)).data = 0#512 := by
    rw [nextWaitIdx_regs hsize hle h, mshrAt_place lrus hle]
    exact slot_data _
  rw [comb_wPacket, issuesWrite_regs hsize hle hone h, hready, hdata]
  simp only [regs, hafter]
  cases d.wReady <;> cases (m.writeHead d).isSome <;> cases m.w <;> rfl

end Packets

/-- A cache that never hits serves zeros. -/
theorem servedLine_getD (r : Regs cfg) (d : Drive cfg) :
    (servedLine r d.bare).getD 0#512 = 0#512 := by
  unfold servedLine
  rw [hitAny_of_blind d.bare_blind]
  cases stalled r d.bare with
  | true => rfl
  | false => cases hkind : d.bare.l2EntryPacket.reqType <;> rfl

theorem comb_l2ExitPacket_regs (hle : cfg.numMshrs ≤ 8) {n : Nets cfg}
    (hexists : n.mshrExists = m.matched) (core : cfg.Core) :
    (comb (m.regs lrus) d.bare n).next.l2ExitPacket core =
      ((m.next d).regs lrus).l2ExitPacket core := by
  have hcore : d.bare.l2EntryPacket.coreId = d.l2EntryPacket.coreId := rfl
  have hline : ((m.regs lrus).l2ExitPacket core).cacheLine = 0#512 := rfl
  rw [comb_l2ExitPacket, hcore]
  unfold exitAfter
  dsimp only
  rw [hline, servedLine_getD, misses_regs, hexists, missAllocates_regs hle]
  by_cases heq : core = d.l2EntryPacket.coreId
  · rw [if_pos heq]
    have hstall : (m.next d).stall core = (m.stall core || (m.asks d && !m.accepts d)) := by
      simp [next, heq]
    simp only [regs, hstall]
    rfl
  · rw [if_neg heq]
    have hstall : (m.next d).stall core = m.stall core := by simp [next, heq]
    simp only [regs, hstall]

/-- **One cycle of the cache is one step of the log.** -/
theorem comb_next_regs (hsize : cfg.numMshrs = cfg.ways) (hle : cfg.numMshrs ≤ 8)
    (hone : 1 < cfg.numMshrs) {n : Nets cfg} (hexists : n.mshrExists = m.matched)
    (h : m.Answers d) :
    (comb (m.regs lrus) d.bare n).next =
      (m.next d).regs (comb (m.regs lrus) d.bare n).next.lrus := by
  ext1
  · funext core
    exact comb_l2ExitPacket_regs hle hexists core
  · funext core
    rw [comb_snoopReq]
    simp [victimTargets, hitTargets, victimActive_of_blind d.bare_blind,
      hitActive_of_blind d.bare_blind]
    rfl
  · funext i
    exact comb_mshrs_regs hle hexists h i
  · rw [comb_freeIdx, victimAllocates_of_blind d.bare_blind, Bool.or_false, hexists,
      missAllocates_regs hle]
    have hfree : (m.regs lrus).freeIdx = BitVec.ofNat 3 (m.accepted.length % cfg.numMshrs) := rfl
    rw [hfree, advance_ofNat hle]
    simp only [regs, next, acceptedAfter]
    cases m.accepts d <;> simp
  · rw [comb_waitIdx, nextWaitIdx_regs hsize hle h]
    rfl
  · exact comb_awPacket_regs hsize hle hone h n
  · exact comb_wPacket_regs hsize hle hone h n
  · exact comb_arPacket_regs hsize hle hone h n
  · rfl

theorem head_valid_iff (hle : cfg.numMshrs ≤ 8) :
    (mshrAt (m.regs lrus).mshrs (m.regs lrus).waitIdx).valid = true ↔ m.Outstanding := by
  have hslot : mshrAt (m.regs lrus).mshrs (m.regs lrus).waitIdx = m.slot (place cfg m.retired) :=
    mshrAt_place lrus hle m.retired
  rw [hslot]
  constructor
  · intro hvalid
    by_contra hnone
    have hlen : m.accepted.length = m.retired :=
      Nat.le_antisymm (Nat.le_of_not_lt hnone) m.retired_le
    have hpos := cfg.numMshrs_pos
    have hfull : m.Full := slot_next_valid.mp (hlen ▸ hvalid)
    unfold Full at hfull
    omega
  · intro hout
    rw [slot_place (Nat.le_refl _) (List.getElem?_eq_getElem hout)]
    rfl

end MissLog

/-! ### Runs -/

theorem run_waiting (s : System cfg) (input : Nat → Drive cfg) (k : Nat) :
    (s.run input k).nets.waiting = s.nets.waiting := by
  induction k with
  | zero => rfl
  | succ k ih =>
      have hnets : (s.run input (k + 1)).nets = (s.run input k).settled (input k) := rfl
      rw [hnets, settled_waiting, ih]

/-- The cache has this log. Its replacement state is open. -/
structure Logged (s : System cfg) (m : MissLog cfg) : Prop where
  regs : s.regs = m.regs s.regs.lrus
  waiting : s.nets.waiting = false
  mshrExists : s.nets.mshrExists = m.matched

theorem Logged.answers {s : System cfg} {m : MissLog cfg} {d : Drive cfg} (hle : cfg.numMshrs ≤ 8)
    (h : Logged s m) (hdram : RespondsToHead s.toMachine (s.openCycle d)) : m.Answers d := by
  intro hresp
  have hvalid : (mshrAt s.regs.mshrs s.regs.waitIdx).valid = true := hdram hresp
  rw [h.regs] at hvalid
  exact (MissLog.head_valid_iff hle).mp hvalid

theorem logged_step {s : System cfg} {m : MissLog cfg} {d : Drive cfg}
    (hsize : cfg.numMshrs = cfg.ways) (hle : cfg.numMshrs ≤ 8) (hone : 1 < cfg.numMshrs)
    (h : Logged s m) (hdram : RespondsToHead s.toMachine (s.openCycle d)) :
    Logged (s.step d) (m.step d) := by
  have hnets : (s.step d).nets = s.settled d := rfl
  have hregs : (s.step d).regs = clocked d.reset s.regs (s.settled d) := rfl
  have hmisses : misses s.regs d.bare = m.asks d := by
    rw [h.regs]
    exact MissLog.misses_regs m d
  have hmatch : mshrMatch s.regs d.bare = decide (m.Holds d.l2EntryPacket.targetAddr) := by
    rw [h.regs]
    exact MissLog.mshrMatch_regs m d
  refine ⟨?_, ?_, ?_⟩
  · rw [hregs]
    unfold clocked MissLog.step
    by_cases hreset : d.reset = true
    · rw [if_pos hreset, if_pos hreset]
      exact MissLog.regs_start _
    · rw [if_neg hreset, if_neg hreset, settled_waiting, h.waiting, if_neg Bool.false_ne_true,
        System.settled_next, h.regs]
      exact MissLog.comb_next_regs hsize hle hone h.mshrExists (h.answers hle hdram)
  · rw [hnets, settled_waiting]
    exact h.waiting
  · rw [hnets, settled_mshrExists, h.mshrExists, hmisses, hmatch]
    unfold MissLog.step
    split <;> rfl

theorem logged_run {s : System cfg} {input : Nat → Drive cfg} {k : Nat}
    (hsize : cfg.numMshrs = cfg.ways) (hle : cfg.numMshrs ≤ 8) (hone : 1 < cfg.numMshrs)
    (hreset : s.AfterReset) (hwaiting : s.nets.waiting = false)
    (hdram : ∀ j < k, RespondsToHead (s.run input j).toMachine (s.cycles input j)) :
    Logged (s.run input k) ((MissLog.start s.nets.mshrExists).run input k) := by
  refine Clocked.persists
    (P := fun k => Logged (s.run input k) ((MissLog.start s.nets.mshrExists).run input k))
    (Nat.zero_le k) ⟨?_, hwaiting, rfl⟩ fun j _ hj hlogged =>
      logged_step hsize hle hone hlogged (hdram j hj)
  have hregs : (s.run input 0).regs = .reset cfg := hreset.1
  rw [hregs]
  exact MissLog.regs_start _

/-- **The cache with its memories refines a log of misses.** -/
theorem cache_refines_missLog (hsize : cfg.numMshrs = cfg.ways) (hle : cfg.numMshrs ≤ 8)
    (hone : 1 < cfg.numMshrs) (s : System cfg) (hreset : s.AfterReset)
    (hwaiting : s.nets.waiting = false) (input : Nat → Drive cfg) (k : Nat)
    (hdram : ∀ j < k, RespondsToHead (s.run input j).toMachine (s.cycles input j)) :
    Logged (s.run input k) ((MissLog.start s.nets.mshrExists).run input k) :=
  logged_run hsize hle hone hreset hwaiting hdram

/-- Core 1 reads a line, and DRAM answers two cycles later. -/
def readThenAnswer : Nat → Drive .shipped
  | 0 => .request .read 0x40 1
  | 1 => .idle _
  | 2 => .response _ 7#512
  | _ + 3 => .idle _

theorem readThenAnswer_responds (k : Nat) :
    RespondsToHead ((System.fresh .shipped).run readThenAnswer k).toMachine
      ((System.fresh .shipped).cycles readThenAnswer k) := by
  rcases k with _ | _ | _ | k
  · rintro (hr | hb)
    · exact absurd hr (by decide)
    · exact absurd hb (by decide)
  · rintro (hr | hb)
    · exact absurd hr (by decide)
    · exact absurd hb (by decide)
  · intro _
    decide +kernel
  · rintro (hr | hb)
    · exact absurd hr Bool.false_ne_true
    · exact absurd hb Bool.false_ne_true

theorem readThenAnswer_logged :
    Logged ((System.fresh .shipped).run readThenAnswer 9)
      ((MissLog.start false).run readThenAnswer 9) :=
  cache_refines_missLog rfl (by decide) (by decide) _ ⟨rfl, rfl⟩ rfl readThenAnswer 9 fun j _ =>
    readThenAnswer_responds j

end MultiCoreL2Cache
