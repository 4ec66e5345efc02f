import MultiCoreL2Cache.Proof.Merging

/-!
# What nothing takes back

The block raises the stall bit of a core, the valid bit of a snoop and the valid bits towards DRAM,
and holds no statement that lowers one of them. It raises `mshr_exists` too, which not even a reset
lowers: the first miss that finds its address in an MSHR is the last one for which the question of an
MSHR is open.
-/

namespace MultiCoreL2Cache

variable {cfg : Config} {s : Machine cfg} {c : Cycle cfg} {n : Nets cfg}

/-! ### Outputs -/

/-- What is raised in `r` is raised in `r'`. -/
structure StillRaised (r r' : Regs cfg) : Prop where
  stall : ∀ core, (r.l2ExitPacket core).stall = true → (r'.l2ExitPacket core).stall = true
  snoop : ∀ core, (r.snoopReq core).valid = true → (r'.snoopReq core).valid = true
  ar : r.arPacket.arValid = true → r'.arPacket.arValid = true
  aw : r.awPacket.awValid = true → r'.awPacket.awValid = true
  w : r.wPacket.wValid = true → r'.wPacket.wValid = true

namespace StillRaised

theorem refl (r : Regs cfg) : StillRaised r r :=
  ⟨fun _ h => h, fun _ h => h, fun h => h, fun h => h, fun h => h⟩

theorem trans {r r' r'' : Regs cfg} (h : StillRaised r r') (h' : StillRaised r' r'') :
    StillRaised r r'' where
  stall core hr := h'.stall core (h.stall core hr)
  snoop core hr := h'.snoop core (h.snoop core hr)
  ar hr := h'.ar (h.ar hr)
  aw hr := h'.aw (h.aw hr)
  w hr := h'.w (h.w hr)

theorem comb (r : Regs cfg) (c : Cycle cfg) (n : Nets cfg) :
    StillRaised r (comb r c n).next where
  stall core hr := by rw [comb_stall, hr, Bool.true_or]
  snoop core hr := by
    rw [comb_snoopReq]
    dsimp only
    have hvictim : (if victimTargets r c core = true then
        snoopReqOf (c.readMeta (lruWay r)).addr .invalid (r.snoopReq core)
      else r.snoopReq core).valid = true := by
      split
      · rfl
      · exact hr
    split
    · unfold hitSnoop
      split <;> rfl
    · exact hvictim
  ar hr := by
    rw [comb_arPacket]
    split
    · rfl
    · exact hr
  aw hr := by
    rw [comb_awPacket]
    split
    · rfl
    · exact hr
  w hr := by
    rw [comb_wPacket]
    split
    · rfl
    · exact hr

theorem step (hreset : c.reset = false) : StillRaised s.regs (s.step c).regs := by
  by_cases hacts : s.Acts c
  · rw [Machine.step_regs_of_acts hacts]
    exact .comb s.regs c s.nets
  · rw [Machine.step_regs_of_frozen hreset hacts]
    exact .refl s.regs

end StillRaised

/-- **Nothing that is raised towards a core or DRAM is lowered before a reset.** -/
theorem raised_until_reset (s : Machine cfg) (input : Nat → Cycle cfg) {b k : Nat} (hle : b ≤ k)
    (hrun : ∀ j, b ≤ j → j < k → (input j).reset = false) :
    StillRaised (s.run input b).regs (s.run input k).regs := by
  refine Clocked.persists (P := fun k => StillRaised (s.run input b).regs (s.run input k).regs) hle
    (.refl _) ?_
  intro j hbj hjk hraised
  exact hraised.trans (.step (hrun j hbj hjk))

/-- A READ miss is issued and answered, and its core reads the line again. -/
def readTwiceIssued : Nat → Cycle .shipped
  | 0 => { Cycle.idle .shipped with toDrive := .request .read 0x40 1 }
  | 1 => { Cycle.idle .shipped with arReady := true }
  | 2 => { Cycle.idle .shipped with toDrive := .response _ 7#512 }
  | 3 => { Cycle.idle .shipped with toDrive := .request .read 0x40 1 }
  | _ + 4 => .idle _

theorem readTwiceIssued_raised :
    StillRaised ((Machine.fresh .shipped).run readTwiceIssued 4).regs
      ((Machine.fresh .shipped).run readTwiceIssued 9).regs := by
  refine raised_until_reset _ _ (by decide) fun j hj hj' => ?_
  obtain ⟨d, rfl⟩ := Nat.exists_eq_add_of_le' hj
  rfl

/-! ### Misses -/

/-- A miss finds its address in an MSHR, in use or not. -/
def FindsMatch (s : Machine cfg) (c : Cycle cfg) : Prop :=
  misses s.regs c = true ∧ mshrMatch s.regs c = true

instance (s : Machine cfg) (c : Cycle cfg) : Decidable (FindsMatch s c) := instDecidableAnd

theorem run_mshrExists (s : Machine cfg) (input : Nat → Cycle cfg) {b k : Nat} (hle : b ≤ k)
    (h : (s.run input b).nets.mshrExists = true) : (s.run input k).nets.mshrExists = true := by
  refine Clocked.persists (P := fun k => (s.run input k).nets.mshrExists = true) hle h ?_
  intro j _ _ hbefore
  have hstep : (s.run input (j + 1)).nets.mshrExists =
      ((s.run input j).nets.mshrExists ||
        (misses (s.run input j).regs (input j) && mshrMatch (s.run input j).regs (input j))) :=
    comb_mshrExists _ _ _
  rw [hstep, hbefore, Bool.true_or]

theorem mshrExists_of_findsMatch {input : Nat → Cycle cfg} {b k : Nat} (hlt : b < k)
    (hmatch : FindsMatch (s.run input b) (input b)) : (s.run input k).nets.mshrExists = true := by
  refine run_mshrExists s input (Nat.succ_le_of_lt hlt) ?_
  have hstep : (s.run input (b + 1)).nets.mshrExists =
      ((s.run input b).nets.mshrExists ||
        (misses (s.run input b).regs (input b) && mshrMatch (s.run input b).regs (input b))) :=
    comb_mshrExists _ _ _
  rw [hstep, hmatch.1, hmatch.2, Bool.and_self, Bool.or_true]

/-- A miss of cycle `c` gets no MSHR, since the clock edge puts in the slots what the signals from DRAM
leave there and nothing else, and its core is stalled. -/
structure LockedOut (s : Machine cfg) (c : Cycle cfg) : Prop where
  refused : s.Acts c → (s.step c).regs.mshrs = dramMshrs s.regs c
  stalls : MissStep s c → ((s.step c).regs.l2ExitPacket c.l2EntryPacket.coreId).stall = true

theorem step_mshrs_of_not_missAllocates (hacts : s.Acts c)
    (h : missAllocates s.regs c s.nets.mshrExists = false) :
    (s.step c).regs.mshrs = dramMshrs s.regs c := by
  rw [Machine.step_regs_of_acts hacts, Machine.settle, comb_mshrs, h, if_neg Bool.false_ne_true]

theorem lockedOut_of_mshrExists (h : s.nets.mshrExists = true) : LockedOut s c where
  refused hacts := step_mshrs_of_not_missAllocates hacts (by simp [missAllocates, h])
  stalls hmiss := hmiss.stall_iff.mpr (.inl (.inl h))

theorem lockedOut_of_findsMatch (h : FindsMatch s c) : LockedOut s c where
  refused hacts := step_mshrs_of_not_missAllocates hacts (by simp [missAllocates, h.2])
  stalls hmiss := hmiss.stall_iff.mpr (.inl (.inr h.2))

/-- **One match locks all misses out.** After a miss that found its address in an MSHR, no miss of any
core for any address gets an MSHR, through any number of resets. -/
theorem match_locks_out (s : Machine cfg) (input : Nat → Cycle cfg) {b k : Nat} (hlt : b < k)
    (hmatch : FindsMatch (s.run input b) (input b)) : LockedOut (s.run input k) (input k) :=
  lockedOut_of_mshrExists (mshrExists_of_findsMatch hlt hmatch)

theorem readTwiceIssued_lockedOut :
    LockedOut ((Machine.fresh .shipped).run readTwiceIssued 9) (readTwiceIssued 9) :=
  match_locks_out (.fresh .shipped) readTwiceIssued (show 3 < 9 by decide) (by decide +kernel)

end MultiCoreL2Cache
