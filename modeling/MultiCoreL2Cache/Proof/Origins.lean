import MultiCoreL2Cache.Proof.Slots

/-!
# Where an MSHR comes from

Three branches of the block fill a slot: the miss, and the two that evict a dirty line. The history
kept here remembers for each slot which of them filled it last, with the request or with what was
captured of the line. Every valid MSHR agrees with its origin, in all fields that the branch sets.
-/

namespace MultiCoreL2Cache

open Packed

variable {cfg : Config}

inductive Origin (cfg : Config)
  | miss (request : L2EntryPacket cfg)
  | victim (addr : Addr) (data : CacheLine)
deriving DecidableEq

abbrev Origins (cfg : Config) := Fin cfg.numMshrs → Option (Origin cfg)

namespace Origins

def step (o : Origins cfg) (s : Machine cfg) (c : Cycle cfg) : Origins cfg :=
  if c.reset then fun _ => none
  else if s.Acts c then
    if missAllocates s.regs c s.nets.mshrExists then
      assign o s.regs.freeIdx.toNat fun _ => some (.miss c.l2EntryPacket)
    else if victimAllocates s.regs c then
      assign o s.regs.freeIdx.toNat fun _ =>
        some (.victim (victimEntry s.regs c).addr (victimEntry s.regs c).data)
    else o
  else o

abbrev run (s : Machine cfg) (input : Nat → Cycle cfg) : Nat → Origins cfg :=
  Clocked.history Machine.step step (fun _ => none) s input

def at? (o : Origins cfg) (idx : BitVec 3) : Option (Origin cfg) := (select? o idx.toNat).join

end Origins

theorem Origins.of_at? {o : Origins cfg} {idx : BitVec 3} {origin : Origin cfg}
    (h : o.at? idx = some origin) : ∃ i, o i = some origin := by
  unfold Origins.at? select? at h
  split at h
  · exact ⟨_, h⟩
  · cases h

/-- The fields that the branch of the origin sets. A miss leaves the data of the slot's last user. -/
def Mshr.TracedTo (entry : Mshr cfg) : Origin cfg → Prop
  | .miss request =>
      entry.addr = request.targetAddr ∧ entry.coreId = request.coreId ∧
        entry.writeReq = (request.reqType == .write)
  | .victim addr data => entry.addr = addr ∧ entry.data = data ∧ entry.writeReq = true

def TracedAt (mshrs : Fin cfg.numMshrs → Mshr cfg) (o : Origins cfg) (i : Fin cfg.numMshrs) : Prop :=
  (mshrs i).valid = true → ∃ origin, o i = some origin ∧ (mshrs i).TracedTo origin

def Traced (mshrs : Fin cfg.numMshrs → Mshr cfg) (o : Origins cfg) : Prop := ∀ i, TracedAt mshrs o i

variable {mshrs : Fin cfg.numMshrs → Mshr cfg} {o : Origins cfg} {s : Machine cfg} {c : Cycle cfg}
  {r : Regs cfg}

theorem Traced.retired (h : Traced r.mshrs o) : Traced (retiredMshrs r c) o := by
  intro i hvalid
  obtain ⟨hold, hne⟩ := (retiredMshrs_valid_iff i).mp hvalid
  rw [retiredMshrs_of_ne hne]
  exact h i hold

/-- Filling slot `i` needs nothing of what was in it. -/
theorem traced_assign {i : Nat} {f : Mshr cfg → Mshr cfg} {origin : Origin cfg}
    (h : ∀ j : Fin cfg.numMshrs, j.val ≠ i → TracedAt mshrs o j)
    (hf : ∀ entry, (f entry).TracedTo origin) :
    Traced (assign mshrs i f) (assign o i fun _ => some origin) := by
  intro j hvalid
  rw [assign_apply] at hvalid ⊢
  rw [assign_apply]
  by_cases hj : j.val = i
  · rw [if_pos hj, if_pos hj]
    exact ⟨origin, rfl, hf _⟩
  · rw [if_neg hj] at hvalid ⊢
    rw [if_neg hj]
    exact h j hj hvalid

theorem traced_step (h : Traced s.regs.mshrs o) :
    Traced (s.step c).regs.mshrs (o.step s c) := by
  unfold Origins.step
  by_cases hreset : c.reset = true
  · rw [Machine.step_regs_of_reset hreset]
    intro i hvalid
    cases hvalid
  · rw [if_neg hreset]
    by_cases hacts : s.Acts c
    · have hretired : Traced (retiredMshrs s.regs c) o := h.retired
      rw [if_pos hacts, Machine.step_regs_of_acts hacts, Machine.settle, comb_mshrs]
      by_cases hmiss : missAllocates s.regs c s.nets.mshrExists = true
      · rw [if_pos hmiss, if_pos hmiss]
        refine traced_assign (fun j hj => ?_) fun _ => ⟨rfl, rfl, rfl⟩
        unfold TracedAt
        rw [dramMshrs_of_ne hj]
        exact hretired j
      · rw [if_neg hmiss, if_neg hmiss, dramMshrs]
        by_cases hvictim : victimAllocates s.regs c = true
        · rw [if_pos hvictim, if_pos hvictim]
          exact traced_assign (fun j _ => hretired j) fun _ =>
            ⟨rfl, rfl, (victimEntry_flags hvictim).2⟩
        · rw [if_neg hvictim, if_neg hvictim]
          exact hretired
    · rw [if_neg hacts, Machine.step_regs_of_frozen (by simpa using hreset) hacts]
      exact h

theorem run_traced (hreset : s.AfterReset) (input : Nat → Cycle cfg) (k : Nat) :
    Traced (s.run input k).regs.mshrs (Origins.run s input k) := by
  refine Clocked.history_invariant Origins.step _ (fun s o => Traced s.regs.mshrs o)
    (fun _ _ _ => True) ?_ (fun _ _ _ h _ => traced_step h) fun _ _ => trivial
  rw [hreset]
  intro i hvalid
  cases hvalid

theorem reqType_of_missAllocates {exists' : Bool} (h : missAllocates r c exists' = true) :
    c.l2EntryPacket.reqType = .read ∨ c.l2EntryPacket.reqType = .write := by
  unfold missAllocates misses readOrWrite at h
  simp only [Bool.and_eq_true, decide_eq_true_eq] at h
  exact h.1.1.1.2

/-! ### The cycle that filled a slot -/

/-- The refill of cycle `c` evicts the dirty line `addr`, `data`, and the clock edge puts it in slot
`i`. -/
structure Evicts (s : Machine cfg) (c : Cycle cfg) (i : Fin cfg.numMshrs) (addr : Addr)
    (data : CacheLine) : Prop where
  acts : s.Acts c
  victim : victimAllocates s.regs c = true
  addr : (victimEntry s.regs c).addr = addr
  data : (victimEntry s.regs c).data = data
  fills : (s.step c).regs.mshrs i = victimEntry s.regs c

/-- Cycle `c` puts the origin of slot `i` down. -/
def RecordsOrigin (s : Machine cfg) (c : Cycle cfg) (i : Fin cfg.numMshrs) : Origin cfg → Prop
  | .miss request =>
      (request.reqType = .read ∨ request.reqType = .write) ∧ c.l2EntryPacket = request
  | .victim addr data => Evicts s c i addr data

theorem step_victim {i : Fin cfg.numMshrs} (hacts : s.Acts c)
    (hmiss : missAllocates s.regs c s.nets.mshrExists = false)
    (hvictim : victimAllocates s.regs c = true) (hi : i.val = s.regs.freeIdx.toNat) :
    (s.step c).regs.mshrs i = victimEntry s.regs c := by
  rw [Machine.step_regs_of_acts hacts, Machine.settle, comb_mshrs, hmiss,
    if_neg Bool.false_ne_true, dramMshrs, if_pos hvictim, assign_apply, if_pos hi]

theorem comb_mshrs_kept {n : Nets cfg} {i : Fin cfg.numMshrs}
    (h : (missAllocates r c n.mshrExists || victimAllocates r c) = true →
      i.val ≠ r.freeIdx.toNat) (hvalid : ((comb r c n).next.mshrs i).valid = true) :
    (comb r c n).next.mshrs i = r.mshrs i := by
  rw [comb_mshrs_of_ne h] at hvalid ⊢
  exact retiredMshrs_of_ne ((retiredMshrs_valid_iff i).mp hvalid).2

/-- A cycle puts down the origin of a slot, or leaves it; the slot then keeps its entry if it is valid
after the cycle. -/
theorem Origins.step_cases (i : Fin cfg.numMshrs) :
    (∀ origin, o.step s c i = some origin → RecordsOrigin s c i origin) ∨
      o.step s c i = o i ∧ (((s.step c).regs.mshrs i).valid = true →
        (s.step c).regs.mshrs i = s.regs.mshrs i) := by
  unfold Origins.step
  by_cases hreset : c.reset = true
  · rw [if_pos hreset]
    exact .inl fun _ horigin => by cases horigin
  rw [if_neg hreset]
  by_cases hacts : s.Acts c
  · rw [if_pos hacts]
    by_cases hmiss : missAllocates s.regs c s.nets.mshrExists = true
    · rw [if_pos hmiss, assign_apply]
      by_cases hi : i.val = s.regs.freeIdx.toNat
      · rw [if_pos hi]
        exact .inl fun origin horigin =>
          Option.some.inj horigin ▸ ⟨reqType_of_missAllocates hmiss, rfl⟩
      · rw [if_neg hi, Machine.step_regs_of_acts hacts]
        exact .inr ⟨rfl, comb_mshrs_kept fun _ => hi⟩
    · rw [if_neg hmiss]
      by_cases hvictim : victimAllocates s.regs c = true
      · rw [if_pos hvictim, assign_apply]
        by_cases hi : i.val = s.regs.freeIdx.toNat
        · rw [if_pos hi]
          have hfills := step_victim hacts (by simpa using hmiss) hvictim hi
          exact .inl fun origin horigin =>
            Option.some.inj horigin ▸ ⟨hacts, hvictim, rfl, rfl, hfills⟩
        · rw [if_neg hi, Machine.step_regs_of_acts hacts]
          exact .inr ⟨rfl, comb_mshrs_kept fun _ => hi⟩
      · rw [if_neg hvictim, Machine.step_regs_of_acts hacts]
        exact .inr ⟨rfl, comb_mshrs_kept fun halloc => absurd halloc (by simp [hmiss, hvictim])⟩
  · rw [if_neg hacts, Machine.step_regs_of_frozen (by simpa using hreset) hacts]
    exact .inr ⟨rfl, fun _ => rfl⟩

theorem run_origin_recorded (input : Nat → Cycle cfg) (k : Nat) {i : Fin cfg.numMshrs}
    {origin : Origin cfg} (h : Origins.run s input k i = some origin) :
    ∃ j < k, RecordsOrigin (s.run input j) (input j) i origin := by
  induction k with
  | zero => cases h
  | succ k ih =>
      rcases Origins.step_cases (o := Origins.run s input k) (s := s.run input k) (c := input k) i with
        hrecords | ⟨hsame, -⟩
      · exact ⟨k, Nat.lt_succ_self k, hrecords origin h⟩
      · obtain ⟨j, hlt, hrecords⟩ := ih (hsame.symm.trans h)
        exact ⟨j, Nat.lt_succ_of_lt hlt, hrecords⟩

/-- The origin of a valid MSHR was put down in an earlier cycle, and its entry is what it was then. -/
theorem run_origin_kept (input : Nat → Cycle cfg) (k : Nat) {i : Fin cfg.numMshrs}
    {origin : Origin cfg} (h : Origins.run s input k i = some origin)
    (hvalid : ((s.run input k).regs.mshrs i).valid = true) :
    ∃ j < k, RecordsOrigin (s.run input j) (input j) i origin ∧
      ∀ l, j < l → l ≤ k → (s.run input l).regs.mshrs i = (s.run input k).regs.mshrs i := by
  induction k with
  | zero => cases h
  | succ k ih =>
      rcases Origins.step_cases (o := Origins.run s input k) (s := s.run input k) (c := input k) i with
        hrecords | ⟨hsame, hkept⟩
      · refine ⟨k, Nat.lt_succ_self k, hrecords origin h, fun l hkl hlk => ?_⟩
        rw [Nat.le_antisymm hlk hkl]
      · have hentry : (s.run input (k + 1)).regs.mshrs i = (s.run input k).regs.mshrs i := hkept hvalid
        obtain ⟨j, hlt, hrecords, hall⟩ := ih (hsame.symm.trans h) (hentry ▸ hvalid)
        refine ⟨j, Nat.lt_succ_of_lt hlt, hrecords, fun l hjl hlk => ?_⟩
        rcases Nat.lt_or_eq_of_le hlk with hbefore | rfl
        · rw [hentry]
          exact hall l hjl (Nat.lt_succ_iff.mp hbefore)
        · rfl

/-- What a miss left in a slot is a READ or WRITE of an earlier cycle. -/
theorem run_origin_presented (input : Nat → Cycle cfg) (k : Nat) {i : Fin cfg.numMshrs}
    {request : L2EntryPacket cfg} (h : Origins.run s input k i = some (.miss request)) :
    (request.reqType = .read ∨ request.reqType = .write) ∧
      ∃ j < k, (input j).l2EntryPacket = request := by
  obtain ⟨j, hlt, hkind, hsame⟩ := run_origin_recorded input k h
  exact ⟨hkind, j, hlt, hsame⟩

theorem Traced.mshrAt (h : Traced mshrs o) {idx : BitVec 3}
    (hvalid : (mshrAt mshrs idx).valid = true) :
    ∃ origin, o.at? idx = some origin ∧ (mshrAt mshrs idx).TracedTo origin := by
  unfold MultiCoreL2Cache.mshrAt Origins.at? at *
  by_cases hlt : idx.toNat < cfg.numMshrs
  · rw [select?_of_lt _ hlt] at hvalid ⊢
    rw [select?_of_lt _ hlt]
    exact h _ hvalid
  · rw [select?_of_not_lt _ hlt] at hvalid
    cases hvalid

end MultiCoreL2Cache
