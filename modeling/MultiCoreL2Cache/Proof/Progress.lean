import MultiCoreL2Cache.Proof.MissLog

/-!
# Every miss ends

DRAM is asked for the oldest miss only, and a miss that has an MSHR waits for all those before it. If
DRAM answers whenever something is outstanding, each of them gets its answer, however many requests
come meanwhile: the rank of a miss, the number of answers until its own, falls with every answer and
never rises.
-/

namespace MultiCoreL2Cache

open Ring

variable {cfg : Config}

/-- An answer from DRAM, or a reset, which takes its place. -/
def Drive.Serves (d : Drive cfg) : Prop :=
  d.reset = true ∨ d.rPacket.rValid = true ∨ d.bPacket.bValid = true

namespace MissLog

variable {m : MissLog cfg} {d : Drive cfg} {i : Fin cfg.numMshrs}

/-! ### Ranks -/

def rank (m : MissLog cfg) (i : Fin cfg.numMshrs) : Nat :=
  match latest cfg.numMshrs i m.accepted.length with
  | some p => p + 1 - m.retired
  | none => 0

theorem rank_of_latest {p : Nat} (h : latest cfg.numMshrs i m.accepted.length = some p) :
    m.rank i = p + 1 - m.retired := by
  simp only [rank, h]

/-- The miss in a valid slot. -/
theorem valid_slot (h : (m.slot i).valid = true) :
    ∃ p, latest cfg.numMshrs i m.accepted.length = some p ∧ m.retired ≤ p := by
  cases hp : latest cfg.numMshrs i m.accepted.length with
  | none =>
      rw [slot_of_none hp] at h
      cases h
  | some p =>
      obtain ⟨x, -, hslot⟩ := slot_of_latest hp
      rw [hslot] at h
      exact ⟨p, rfl, of_decide_eq_true h⟩

theorem rank_pos (h : (m.slot i).valid = true) : 0 < m.rank i := by
  obtain ⟨p, hp, hle⟩ := valid_slot h
  rw [rank_of_latest hp]
  omega

theorem outstanding_of_valid (h : (m.slot i).valid = true) : m.Outstanding := by
  obtain ⟨p, hp, hle⟩ := valid_slot h
  exact Nat.lt_of_le_of_lt hle (latest_lt hp)

/-- A miss that joins does not take the slot of one that is not answered. -/
theorem latest_next (h : (m.slot i).valid = true) :
    latest cfg.numMshrs i (m.next d).accepted.length =
      latest cfg.numMshrs i m.accepted.length := by
  refine latest_next_of_ne fun haccepts hi => not_full_of_accepts haccepts ?_
  have hplace : i = place cfg m.accepted.length := Fin.ext hi
  exact slot_next_valid.mp (hplace ▸ h)

theorem next_slot_eq (h : (m.slot i).valid = true) (h' : ((m.next d).slot i).valid = true) :
    (m.next d).slot i = m.slot i := by
  obtain ⟨p, hp, hle⟩ := valid_slot h
  obtain ⟨q, hq, hle'⟩ := valid_slot h'
  have hpq : q = p := Option.some.inj (hq.symm.trans ((latest_next h).trans hp))
  obtain ⟨x, hx, hslot⟩ := slot_of_latest hp
  obtain ⟨y, hy, hslot'⟩ := slot_of_latest hq
  rw [hpq] at hy hslot' hle'
  have hxy : y = x := Option.some.inj (hy.symm.trans ((accepted_next (latest_lt hp)).trans hx))
  rw [hslot', hslot, hxy, decide_eq_true hle', decide_eq_true hle]

theorem rank_next_le (h : (m.slot i).valid = true) : (m.next d).rank i ≤ m.rank i := by
  obtain ⟨p, hp, -⟩ := valid_slot h
  have hretired : m.retired ≤ (m.next d).retired := m.retired_le_retiredAfter d
  rw [rank_of_latest hp, rank_of_latest ((latest_next h).trans hp)]
  omega

theorem rank_next_lt (h : (m.slot i).valid = true) (hanswered : m.answered d = true) :
    (m.next d).rank i < m.rank i := by
  obtain ⟨p, hp, hle⟩ := valid_slot h
  have hretired : (m.next d).retired = m.retired + 1 := retiredAfter_of_answered hanswered
  rw [rank_of_latest hp, rank_of_latest ((latest_next h).trans hp), hretired]
  omega

theorem step_of_reset (h : d.reset = true) : m.step d = start (m.matched || m.finds d) := if_pos h

theorem step_of_not_reset (h : d.reset = false) : m.step d = m.next d :=
  if_neg (by rw [h]; exact Bool.false_ne_true)

theorem rank_start (matched : Bool) : (start matched).rank i = 0 := rfl

theorem answered_of_serves (hout : m.Outstanding) (hserves : d.Serves) (hreset : d.reset = false) :
    m.answered d = true := by
  have hresp : (d.rPacket.rValid || d.bPacket.bValid) = true := by
    rcases hserves with hrst | hresp
    · rw [hreset] at hrst
      cases hrst
    · simpa using hresp
  rw [answered, hresp, decide_eq_true hout]
  rfl

theorem rank_step_le (h : (m.slot i).valid = true) : (m.step d).rank i ≤ m.rank i := by
  cases hreset : d.reset with
  | true =>
      rw [step_of_reset hreset, rank_start]
      exact Nat.zero_le _
  | false =>
      rw [step_of_not_reset hreset]
      exact rank_next_le h

theorem rank_step_lt (h : (m.slot i).valid = true) (hserves : d.Serves) :
    (m.step d).rank i < m.rank i := by
  cases hreset : d.reset with
  | true =>
      rw [step_of_reset hreset, rank_start]
      exact rank_pos h
  | false =>
      rw [step_of_not_reset hreset]
      exact rank_next_lt h (answered_of_serves (outstanding_of_valid h) hserves hreset)

theorem step_slot_eq (h : (m.slot i).valid = true) (h' : ((m.step d).slot i).valid = true) :
    (m.step d).slot i = m.slot i := by
  cases hreset : d.reset with
  | true =>
      rw [step_of_reset hreset] at h'
      cases h'
  | false =>
      rw [step_of_not_reset hreset] at h' ⊢
      exact next_slot_eq h h'

/-! ### Runs of the log -/

/-- As long as a miss is outstanding, an answer comes. -/
def Fair (m : MissLog cfg) (input : Nat → Drive cfg) : Prop :=
  ∀ k, (m.run input k).Outstanding → ∃ j, k ≤ j ∧ (input j).Serves

theorem eventually_invalid {input : Nat → Drive cfg} (hfair : m.Fair input) (b : Nat)
    (i : Fin cfg.numMshrs) : ∃ k, b ≤ k ∧ ((m.run input k).slot i).valid = false := by
  by_contra hnever
  have hvalid : ∀ j, b ≤ j → ((m.run input j).slot i).valid = true := by
    intro j hj
    by_contra hinvalid
    exact hnever ⟨j, hj, by simpa using hinvalid⟩
  obtain ⟨k, hk, hzero⟩ := Clocked.eventually_zero (f := fun j => (m.run input j).rank i)
    (fun j hj => rank_step_le (hvalid j hj)) fun j hj _ => by
      obtain ⟨n, hn, hserves⟩ := hfair j (outstanding_of_valid (hvalid j hj))
      exact ⟨n, hn, fun _ => rank_step_lt (hvalid n (hj.trans hn)) hserves⟩
  exact absurd (rank_pos (hvalid k hk)) (by rw [hzero k (Nat.le_refl k)]; exact Nat.lt_irrefl 0)

/-! ### After a match -/

def pending (m : MissLog cfg) : Nat := m.accepted.length - m.retired

theorem pending_pos_iff : 0 < m.pending ↔ m.Outstanding := by
  unfold pending Outstanding
  omega

theorem matched_step (h : m.matched = true) : (m.step d).matched = true := by
  have hstep : (m.step d).matched = (m.matched || m.finds d) := by
    unfold step
    split <;> rfl
  rw [hstep, h, Bool.true_or]

theorem accepted_next_of_matched (h : m.matched = true) : (m.next d).accepted = m.accepted := by
  refine if_neg ?_
  unfold accepts
  simp [h]

theorem pending_step_le (h : m.matched = true) : (m.step d).pending ≤ m.pending := by
  cases hreset : d.reset with
  | true =>
      rw [step_of_reset hreset]
      exact Nat.zero_le _
  | false =>
      have hretired : m.retired ≤ (m.next d).retired := m.retired_le_retiredAfter d
      rw [step_of_not_reset hreset, pending, pending, accepted_next_of_matched h]
      omega

theorem pending_step_lt (h : m.matched = true) (hout : m.Outstanding) (hserves : d.Serves) :
    (m.step d).pending < m.pending := by
  have hpos := pending_pos_iff.mpr hout
  cases hreset : d.reset with
  | true =>
      rw [step_of_reset hreset]
      exact hpos
  | false =>
      have hretired : (m.next d).retired = m.retired + 1 :=
        retiredAfter_of_answered (answered_of_serves hout hserves hreset)
      rw [step_of_not_reset hreset, pending, accepted_next_of_matched h, hretired]
      unfold pending at hpos ⊢
      omega

theorem eventually_quiet {input : Nat → Drive cfg} (hfair : m.Fair input) {b : Nat}
    (hmatched : (m.run input b).matched = true) :
    ∃ k, b ≤ k ∧ ∀ j, k ≤ j → ¬(m.run input j).Outstanding := by
  have hstays : ∀ j, b ≤ j → (m.run input j).matched = true := fun j hj =>
    Clocked.persists (P := fun j => (m.run input j).matched = true) hj hmatched
      fun _ _ _ => matched_step
  obtain ⟨k, hk, hzero⟩ := Clocked.eventually_zero (f := fun j => (m.run input j).pending)
    (fun j hj => pending_step_le (hstays j hj)) fun j hj hpos => by
      obtain ⟨n, hn, hserves⟩ := hfair j (pending_pos_iff.mp hpos)
      refine ⟨n, hn, fun hout => ?_⟩
      exact pending_step_lt (hstays n (hj.trans hn)) (pending_pos_iff.mp hout) hserves
  refine ⟨k, hk, fun j hj hout => ?_⟩
  exact absurd (pending_pos_iff.mpr hout) (by rw [hzero j hj]; exact Nat.lt_irrefl 0)

/-- Up to the cycle in which a slot is found free, it keeps what it held. -/
theorem run_slot_eq {input : Nat → Drive cfg} {b k : Nat}
    (hvalid : ∀ j, b ≤ j → j ≤ k → ((m.run input j).slot i).valid = true) (hbk : b ≤ k) :
    (m.run input k).slot i = (m.run input b).slot i := by
  refine Clocked.run_keeps (fun m : MissLog cfg => m.slot i) hbk fun j hbj hjk => ?_
  exact step_slot_eq (hvalid j hbj (Nat.le_of_lt hjk)) (hvalid (j + 1) (Nat.le_succ_of_le hbj) hjk)

end MissLog

/-! ### The cache -/

/-- DRAM answers only what is outstanding, and goes on as long as something is. -/
structure FairDram (s : System cfg) (input : Nat → Drive cfg) : Prop where
  responds : ∀ k, RespondsToHead (s.run input k).toMachine (s.cycles input k)
  serves : ∀ k, (mshrAt (s.run input k).regs.mshrs (s.run input k).regs.waitIdx).valid = true →
    ∃ j, k ≤ j ∧ (input j).Serves

/-- A cache as it comes out of reset, with more than one MSHR, that no snoop has frozen. -/
structure Unfrozen (s : System cfg) : Prop where
  size : cfg.numMshrs = cfg.ways
  le : cfg.numMshrs ≤ 8
  one_lt : 1 < cfg.numMshrs
  afterReset : s.AfterReset
  waiting : s.nets.waiting = false

section Cache

variable {s : System cfg} {input : Nat → Drive cfg}

theorem run_logged (hs : Unfrozen s) (hdram : FairDram s input) (k : Nat) :
    Logged (s.run input k) ((MissLog.start s.nets.mshrExists).run input k) :=
  logged_run hs.size hs.le hs.one_lt hs.afterReset hs.waiting fun j _ => hdram.responds j

theorem Logged.mshrs {m : MissLog cfg} (h : Logged s m) (i : Fin cfg.numMshrs) :
    s.regs.mshrs i = m.slot i := by
  rw [h.regs]
  rfl

theorem fair_of_fairDram (hs : Unfrozen s) (hdram : FairDram s input) :
    (MissLog.start s.nets.mshrExists).Fair input := by
  intro k hout
  refine hdram.serves k ?_
  rw [(run_logged hs hdram k).regs]
  exact (MissLog.head_valid_iff hs.le).mpr hout

/-- MSHR `i` is free again in cycle `k`, and has kept its request since cycle `b`. -/
structure EndsAt (s : System cfg) (input : Nat → Drive cfg) (i : Fin cfg.numMshrs) (b k : Nat) :
    Prop where
  later : b < k
  free : ((s.run input k).regs.mshrs i).valid = false
  keeps : ∀ j, b ≤ j → j < k → (s.run input j).regs.mshrs i = (s.run input b).regs.mshrs i

theorem exists_endsAt (hs : Unfrozen s) (hdram : FairDram s input) {b : Nat} {i : Fin cfg.numMshrs}
    (hvalid : ((s.run input b).regs.mshrs i).valid = true) : ∃ k, EndsAt s input i b k := by
  have hslot : ∀ j, (s.run input j).regs.mshrs i =
      ((MissLog.start s.nets.mshrExists).run input j).slot i := fun j =>
    (run_logged hs hdram j).mshrs i
  have hends : ∃ k, b ≤ k ∧
      (((MissLog.start s.nets.mshrExists).run input k).slot i).valid = false :=
    MissLog.eventually_invalid (fair_of_fairDram hs hdram) b i
  classical
  obtain ⟨hle, hfree⟩ := Nat.find_spec hends
  have hbefore : ∀ j, b ≤ j → j < Nat.find hends →
      (((MissLog.start s.nets.mshrExists).run input j).slot i).valid = true := by
    intro j hbj hj
    by_contra hinvalid
    exact Nat.find_min hends hj ⟨hbj, by simpa using hinvalid⟩
  refine ⟨Nat.find hends, ?_, by rw [hslot]; exact hfree, fun j hbj hj => ?_⟩
  · refine Nat.lt_of_le_of_ne hle fun heq => ?_
    rw [← heq, ← hslot, hvalid] at hfree
    cases hfree
  · rw [hslot, hslot]
    exact MissLog.run_slot_eq (fun l hbl hlj => hbefore l hbl (hlj.trans_lt hj)) hbj

/-- **No miss starves.** -/
theorem misses_end (s : System cfg) (hs : Unfrozen s) (input : Nat → Drive cfg)
    (hdram : FairDram s input) (b : Nat) (i : Fin cfg.numMshrs)
    (hvalid : ((s.run input b).regs.mshrs i).valid = true) : ∃ k, EndsAt s input i b k :=
  exists_endsAt hs hdram hvalid

/-- Two cores read one line, DRAM answers once, and from then on the cache is held in reset. -/
def mergedThenAnswered : Nat → Drive .shipped
  | 0 => .request .read 0x40 1
  | 1 => .request .read 0x40 2
  | 2 => .response _ 7#512
  | _ + 3 => resetDrive _

theorem mergedThenAnswered_fair : FairDram (.fresh .shipped) mergedThenAnswered where
  responds k := by
    rcases k with _ | _ | _ | k
    · rintro (hr | hb)
      · exact absurd hr (by decide)
      · exact absurd hb (by decide)
    · rintro (hr | hb)
      · exact absurd hr (by decide)
      · exact absurd hb (by decide)
    · intro _
      decide +kernel
    · rintro (hr | hb)
      · exact absurd hr Bool.false_ne_true
      · exact absurd hb Bool.false_ne_true
  serves k _ := ⟨k + 3, Nat.le_add_right k 3, .inl rfl⟩

theorem fresh_unfrozen : Unfrozen (.fresh .shipped) :=
  ⟨rfl, by decide, by decide, ⟨rfl, rfl⟩, rfl⟩

theorem mergedThenAnswered_ends :
    ∃ k, EndsAt (.fresh .shipped) mergedThenAnswered (0 : Fin 8) 1 k :=
  misses_end _ fresh_unfrozen mergedThenAnswered mergedThenAnswered_fair 1 (0 : Fin 8)
    (by decide +kernel)

/-- **Once a miss has found its address, the cache drains and stays empty**, whatever is requested and
however often it is reset. -/
theorem goes_quiet (s : System cfg) (hs : Unfrozen s) (input : Nat → Drive cfg)
    (hdram : FairDram s input) (b : Nat) (hexists : (s.run input b).nets.mshrExists = true) :
    ∃ k, b ≤ k ∧ ∀ j, k ≤ j → ∀ i, ((s.run input j).regs.mshrs i).valid = false := by
  have hmatched : ((MissLog.start s.nets.mshrExists).run input b).matched = true := by
    rw [← (run_logged hs hdram b).mshrExists]
    exact hexists
  obtain ⟨k, hk, hquiet⟩ := MissLog.eventually_quiet (fair_of_fairDram hs hdram) hmatched
  refine ⟨k, hk, fun j hj i => ?_⟩
  rw [(run_logged hs hdram j).mshrs]
  by_contra hvalid
  exact hquiet j hj (MissLog.outstanding_of_valid (by simpa using hvalid))

theorem mergedThenAnswered_quiet :
    ∃ k, 2 ≤ k ∧ ∀ j, k ≤ j → ∀ i : Fin 8,
      (((System.fresh .shipped).run mergedThenAnswered j).regs.mshrs i).valid = false :=
  goes_quiet _ fresh_unfrozen mergedThenAnswered mergedThenAnswered_fair 2 (by decide +kernel)

end Cache

end MultiCoreL2Cache
