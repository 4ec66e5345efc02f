import MultiCoreL2Cache.Model.System
import MultiCoreL2Cache.Proof.Slots

/-!
# Stalled cores

A miss that gets no MSHR sets the stall bit of its core, and only a reset clears it. The core should
then have something to wait for. The address that a miss is compared with may be that of an MSHR
which has retired, and an MSHR that retires wakes nobody, so a core can be stalled with no MSHR in use.
-/

namespace MultiCoreL2Cache

open Packed

variable {cfg : Config} {r : Regs cfg} {c : Cycle cfg} {n : Nets cfg} {s : Machine cfg}

def Regs.Stalls (r : Regs cfg) : Prop := ∃ core, (r.l2ExitPacket core).stall = true

def Regs.Outstanding (r : Regs cfg) : Prop := ∃ i, (r.mshrs i).valid = true

instance (r : Regs cfg) : Decidable r.Stalls := inferInstanceAs (Decidable (∃ _, _))

instance (r : Regs cfg) : Decidable r.Outstanding := inferInstanceAs (Decidable (∃ _, _))

def StallsJustified (r : Regs cfg) : Prop := r.Stalls → r.Outstanding

/-- A READ or WRITE that misses gets no MSHR. -/
def refuses (r : Regs cfg) (c : Cycle cfg) (exists' : Bool) : Bool :=
  misses r c && !missAllocates r c exists'

/-- A valid MSHR other than the one that a response retires. -/
def StaysOutstanding (r : Regs cfg) (c : Cycle cfg) : Prop :=
  ∃ i, (r.mshrs i).valid = true ∧
    ((c.rPacket.rValid || c.bPacket.bValid) = true → i.val ≠ r.waitIdx.toNat)

instance (r : Regs cfg) (c : Cycle cfg) : Decidable (StaysOutstanding r c) :=
  inferInstanceAs (Decidable (∃ _, _))

/-! ### What leaves a stall without its cause -/

/-- A miss has been refused since the last reset. -/
def RefusedBefore (s : Machine cfg) (input : Nat → Cycle cfg) (k : Nat) : Prop :=
  ∃ j < k, (s.run input j).Acts (input j) ∧
    refuses (s.run input j).regs (input j) (s.run input j).nets.mshrExists = true ∧
      ∀ l, j < l → l < k → (input l).reset = false

/-- A response retires the only MSHR in use. -/
structure RetiresLast (r : Regs cfg) (c : Cycle cfg) : Prop where
  responds : (c.rPacket.rValid || c.bPacket.bValid) = true
  head : (mshrAt r.mshrs r.waitIdx).valid = true
  last : ∀ i, (r.mshrs i).valid = true → i.val = r.waitIdx.toNat

/-- No MSHR is in use, and a miss finds its address in a retired one, or the match of an earlier miss in
`mshr_exists`. -/
structure FindsRetired (s : Machine cfg) (c : Cycle cfg) : Prop where
  idle : ¬s.regs.Outstanding
  misses : misses s.regs c = true
  found : s.nets.mshrExists = true ∨ mshrMatch s.regs c = true

/-- The last MSHR in use retires only when no miss has been refused and none comes, and no miss finds
a retired MSHR, unless the cycle allocates another one. -/
structure KeepsCause (s : Machine cfg) (input : Nat → Cycle cfg) (k : Nat) : Prop where
  retires : (s.run input k).Acts (input k) → RetiresLast (s.run input k).regs (input k) →
    (¬RefusedBefore s input k ∧ misses (s.run input k).regs (input k) = false) ∨
      missAllocates (s.run input k).regs (input k) (s.run input k).nets.mshrExists = true ∨
        victimAllocates (s.run input k).regs (input k) = true
  finds : (s.run input k).Acts (input k) → FindsRetired (s.run input k) (input k) →
    victimAllocates (s.run input k).regs (input k) = true

/-! ### What a cycle does to the stall bits and the valid bits -/

theorem comb_stall (core : cfg.Core) :
    ((comb r c n).next.l2ExitPacket core).stall =
      ((r.l2ExitPacket core).stall ||
        (decide (core = c.l2EntryPacket.coreId) && refuses r c n.mshrExists)) := by
  rw [comb_l2ExitPacket]
  dsimp only
  by_cases hcore : core = c.l2EntryPacket.coreId
  · rw [if_pos hcore, decide_eq_true hcore, Bool.true_and]
    rfl
  · rw [if_neg hcore, decide_eq_false hcore, Bool.false_and, Bool.or_false]

theorem stalled_of_misses (hmiss : misses r c = true) :
    (r.l2ExitPacket c.l2EntryPacket.coreId).stall = false := by
  unfold misses readOrWrite stalled at hmiss
  simp only [Bool.and_eq_true, Bool.not_eq_true'] at hmiss
  exact hmiss.1.1

theorem comb_stalls_iff :
    (comb r c n).next.Stalls ↔ r.Stalls ∨ refuses r c n.mshrExists = true := by
  unfold Regs.Stalls
  simp only [comb_stall, Bool.or_eq_true, Bool.and_eq_true, decide_eq_true_eq]
  rw [exists_or]
  simp

theorem assign_outstanding {mshrs : Fin cfg.numMshrs → Mshr cfg} {f : Mshr cfg → Mshr cfg}
    {idx : Nat} (hidx : idx < cfg.numMshrs) (hf : ∀ entry, (f entry).valid = true) :
    ∃ i, (assign mshrs idx f i).valid = true := by
  refine ⟨⟨idx, hidx⟩, ?_⟩
  rw [assign_apply, if_pos rfl]
  exact hf _

theorem comb_outstanding_iff (hfree : r.freeIdx.toNat < cfg.numMshrs) :
    (comb r c n).next.Outstanding ↔
      StaysOutstanding r c ∨ missAllocates r c n.mshrExists = true ∨
        victimAllocates r c = true := by
  unfold Regs.Outstanding
  rw [comb_mshrs]
  by_cases hmiss : missAllocates r c n.mshrExists = true
  · rw [if_pos hmiss]
    exact iff_of_true (assign_outstanding hfree fun _ => rfl) (.inr (.inl hmiss))
  · rw [if_neg hmiss, dramMshrs]
    by_cases hvictim : victimAllocates r c = true
    · rw [if_pos hvictim]
      exact iff_of_true (assign_outstanding hfree fun _ => (victimEntry_flags hvictim).1)
        (.inr (.inr hvictim))
    · rw [if_neg hvictim, or_iff_left (by simp [hmiss, hvictim])]
      exact exists_congr retiredMshrs_valid_iff

/-! ### Runs -/

theorem run_freeIdx_lt (hreset : s.AfterReset) (input : Nat → Cycle cfg) (k : Nat) :
    (s.run input k).regs.freeIdx.toNat < cfg.numMshrs := by
  refine Machine.run_regs_invariant (fun r => r.freeIdx.toNat < cfg.numMshrs) (fun _ _ => True) hreset
    cfg.numMshrs_pos (fun s c _ hlt _ => ?_) fun _ _ => trivial
  rw [Machine.settle, comb_freeIdx]
  split
  · exact advance_lt cfg.numMshrs_pos _
  · exact hlt

theorem step_stalls_iff :
    (s.step c).regs.Stalls ↔ c.reset = false ∧
      (s.regs.Stalls ∨ s.Acts c ∧ refuses s.regs c s.nets.mshrExists = true) := by
  by_cases hreset : c.reset = true
  · rw [Machine.step_regs_of_reset hreset]
    refine iff_of_false ?_ (by simp [hreset])
    rintro ⟨core, hstall⟩
    cases hstall
  · have hrun : c.reset = false := by simpa using hreset
    by_cases hacts : s.Acts c
    · rw [Machine.step_regs_of_acts hacts, Machine.settle, comb_stalls_iff]
      simp [hrun, hacts]
    · rw [Machine.step_regs_of_frozen hrun hacts]
      simp [hrun, hacts]

theorem refusedBefore_succ_iff {input : Nat → Cycle cfg} {k : Nat} :
    RefusedBefore s input (k + 1) ↔ (input k).reset = false ∧
      (RefusedBefore s input k ∨ (s.run input k).Acts (input k) ∧
        refuses (s.run input k).regs (input k) (s.run input k).nets.mshrExists = true) := by
  constructor
  · rintro ⟨j, hj, hacts, hrefuses, hrun⟩
    rcases Nat.lt_or_eq_of_le (Nat.lt_succ_iff.mp hj) with hlt | rfl
    · exact ⟨hrun k hlt (Nat.lt_succ_self k),
        .inl ⟨j, hlt, hacts, hrefuses, fun l hjl hlk => hrun l hjl (Nat.lt_succ_of_lt hlk)⟩⟩
    · exact ⟨hacts.1, .inr ⟨hacts, hrefuses⟩⟩
  · rintro ⟨hreset, ⟨j, hj, hacts, hrefuses, hrun⟩ | ⟨hacts, hrefuses⟩⟩
    · refine ⟨j, Nat.lt_succ_of_lt hj, hacts, hrefuses, fun l hjl hlk => ?_⟩
      rcases Nat.lt_or_eq_of_le (Nat.lt_succ_iff.mp hlk) with hlt | rfl
      · exact hrun l hjl hlt
      · exact hreset
    · exact ⟨k, Nat.lt_succ_self k, hacts, hrefuses, fun l hkl hlk => by omega⟩

/-- A core is stalled exactly if one has been refused an MSHR since the last reset. -/
theorem run_stalls_iff (hreset : s.AfterReset) (input : Nat → Cycle cfg) (k : Nat) :
    (s.run input k).regs.Stalls ↔ RefusedBefore s input k := by
  induction k with
  | zero =>
      have hregs : (s.run input 0).regs = .reset cfg := hreset
      rw [hregs]
      refine iff_of_false ?_ ?_
      · rintro ⟨core, hstall⟩
        cases hstall
      · rintro ⟨j, hj, -⟩
        cases hj
  | succ k ih => exact step_stalls_iff.trans (by rw [ih, refusedBefore_succ_iff])

theorem staysOutstanding_iff : StaysOutstanding r c ↔ r.Outstanding ∧ ¬RetiresLast r c := by
  constructor
  · rintro ⟨i, hvalid, hstays⟩
    exact ⟨⟨i, hvalid⟩, fun h => hstays h.responds (h.last i hvalid)⟩
  · rintro ⟨⟨i, hvalid⟩, hnot⟩
    by_contra hnone
    have hlast : ∀ j, (r.mshrs j).valid = true →
        (c.rPacket.rValid || c.bPacket.bValid) = true ∧ j.val = r.waitIdx.toNat := by
      intro j hj
      by_contra hother
      exact hnone ⟨j, hj, fun hresp hidx => hother ⟨hresp, hidx⟩⟩
    obtain ⟨hresp, hi⟩ := hlast i hvalid
    refine hnot ⟨hresp, ?_, fun j hj => (hlast j hj).2⟩
    rw [mshrAt_of_lt _ (hi ▸ i.isLt)]
    exact (congrArg (fun i => (r.mshrs i).valid) (Fin.ext hi)).symm.trans hvalid

theorem refuses_eq_true {exists' : Bool} :
    refuses r c exists' = true ↔ misses r c = true ∧ ¬missAllocates r c exists' = true := by
  unfold refuses
  simp

/-- A miss is refused for a match or for want of a free slot. -/
theorem refuses_iff {exists' : Bool} (hmiss : misses r c = true) :
    refuses r c exists' = true ↔
      (exists' = true ∨ mshrMatch r c = true) ∨ (mshrAt r.mshrs r.freeIdx).valid = true := by
  unfold refuses missAllocates
  rw [hmiss]
  cases exists' <;> cases mshrMatch r c <;> simp

theorem mshrAt_invalid_of_idle (hidle : ¬r.Outstanding) (idx : BitVec 3) :
    ¬(mshrAt r.mshrs idx).valid = true := by
  intro hvalid
  have hlt := lt_of_mshrAt_valid hvalid
  rw [mshrAt_of_lt _ hlt] at hvalid
  exact hidle ⟨_, hvalid⟩

theorem findsRetired_iff (hidle : ¬s.regs.Outstanding) :
    FindsRetired s c ↔ refuses s.regs c s.nets.mshrExists = true := by
  constructor
  · rintro ⟨-, hmisses, hfound⟩
    exact (refuses_iff hmisses).mpr (.inl hfound)
  · intro hrefuses
    have hmisses := (refuses_eq_true.mp hrefuses).1
    have hfound := ((refuses_iff hmisses).mp hrefuses).resolve_right (mshrAt_invalid_of_idle hidle _)
    exact ⟨hidle, hmisses, hfound⟩

theorem RetiresLast.outstanding (h : RetiresLast r c) : r.Outstanding := by
  by_contra hidle
  exact mshrAt_invalid_of_idle hidle _ h.head

section Causes

variable {input : Nat → Cycle cfg} {k : Nat} (hacts : (s.run input k).Acts (input k))
include hacts

theorem keepsCause_iff_of_retiresLast (hlast : RetiresLast (s.run input k).regs (input k)) :
    KeepsCause s input k ↔
      (¬RefusedBefore s input k ∧ misses (s.run input k).regs (input k) = false) ∨
        missAllocates (s.run input k).regs (input k) (s.run input k).nets.mshrExists = true ∨
          victimAllocates (s.run input k).regs (input k) = true := by
  constructor
  · intro h
    exact h.retires hacts hlast
  · intro h
    exact ⟨fun _ _ => h, fun _ hfinds => absurd hlast.outstanding hfinds.idle⟩

theorem keepsCause_iff_of_idle (hidle : ¬(s.run input k).regs.Outstanding) :
    KeepsCause s input k ↔
      (refuses (s.run input k).regs (input k) (s.run input k).nets.mshrExists = true →
        victimAllocates (s.run input k).regs (input k) = true) := by
  rw [← findsRetired_iff hidle]
  constructor
  · intro h
    exact h.finds hacts
  · intro h
    exact ⟨fun _ hlast => absurd hlast.outstanding hidle, fun _ => h⟩

/-- What is left of the stalls and their causes after a cycle that acts. -/
theorem keepsCause_iff (hreset : s.AfterReset) (h : StallsJustified (s.run input k).regs) :
    KeepsCause s input k ↔
      ((s.run input k).regs.Stalls ∨
        refuses (s.run input k).regs (input k) (s.run input k).nets.mshrExists = true →
      StaysOutstanding (s.run input k).regs (input k) ∨
        missAllocates (s.run input k).regs (input k) (s.run input k).nets.mshrExists = true ∨
          victimAllocates (s.run input k).regs (input k) = true) := by
  rw [staysOutstanding_iff]
  by_cases hidle : (s.run input k).regs.Outstanding
  · by_cases hlast : RetiresLast (s.run input k).regs (input k)
    · -- the response leaves no MSHR in use, so that only an allocation can
      have hquiet : misses (s.run input k).regs (input k) = false ↔
          ¬misses (s.run input k).regs (input k) = true := by simp
      rw [keepsCause_iff_of_retiresLast hacts hlast, ← run_stalls_iff hreset, refuses_eq_true, hquiet]
      tauto
    · exact iff_of_true ⟨fun _ hretires => absurd hretires hlast,
        fun _ hfinds => absurd hidle hfinds.idle⟩ fun _ => .inl ⟨hidle, hlast⟩
  · -- nobody is stalled, and a miss can be refused for a match only
    have hnone : ¬(s.run input k).regs.Stalls := fun hstall => hidle (h hstall)
    rw [keepsCause_iff_of_idle hacts hidle, refuses_eq_true]
    tauto

end Causes

theorem stallsJustified_step_iff (hreset : s.AfterReset) {input : Nat → Cycle cfg} {k : Nat}
    (h : StallsJustified (s.run input k).regs) :
    StallsJustified (s.run input (k + 1)).regs ↔ KeepsCause s input k := by
  have hstep : (s.run input (k + 1)).regs = ((s.run input k).step (input k)).regs := rfl
  rw [hstep]
  by_cases hacts : (s.run input k).Acts (input k)
  · rw [keepsCause_iff hacts hreset h, Machine.step_regs_of_acts hacts, Machine.settle,
      StallsJustified, comb_stalls_iff, comb_outstanding_iff (run_freeIdx_lt hreset input k)]
  · refine iff_of_true ?_ ⟨fun h => absurd h hacts, fun h => absurd h hacts⟩
    by_cases hrst : (input k).reset = true
    · rw [Machine.step_regs_of_reset hrst]
      rintro ⟨core, hstall⟩
      cases hstall
    · rw [Machine.step_regs_of_frozen (by simpa using hrst) hacts]
      exact h

/-- **No stall outlives its cause, in exactly the runs in which the last MSHR in use retires before
any miss is refused, and no miss finds a retired one.** -/
theorem stallsJustified_iff (s : Machine cfg) (hreset : s.AfterReset) (input : Nat → Cycle cfg) :
    (∀ k, StallsJustified (s.run input k).regs) ↔ ∀ k, KeepsCause s input k := by
  refine Clocked.forall_iff ?_ fun k => stallsJustified_step_iff hreset
  have hregs : (s.run input 0).regs = .reset cfg := hreset
  rw [hregs]
  rintro ⟨core, hstall⟩
  cases hstall

/-- Core 1 reads a line again after its refill. -/
def readRetired : Nat → Drive .shipped
  | 0 => .request .read 0x40 1
  | 1 => .response _ 7#512
  | 2 => .request .read 0x40 1
  | _ + 3 => .idle _

theorem readRetired_justified_iff :
    (∀ k, StallsJustified ((System.fresh .shipped).toMachine.run
        ((System.fresh .shipped).cycles readRetired) k).regs) ↔
      ∀ k, KeepsCause (System.fresh .shipped).toMachine
        ((System.fresh .shipped).cycles readRetired) k :=
  stallsJustified_iff _ (Machine.fresh_afterReset _) _

theorem stall_outlives_cause :
    ¬∀ (s : System .shipped) (input : Nat → Drive .shipped) (k : Nat), s.AfterReset →
      StallsJustified (s.run input k).regs := by
  intro hclaim
  have hjustified := hclaim (.fresh _) readRetired 3 ⟨rfl, rfl⟩
  exact absurd (hjustified (by decide +kernel)) (by decide +kernel)

end MultiCoreL2Cache
