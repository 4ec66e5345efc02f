import MultiCoreL2Cache.Proof.Directory
import MultiCoreL2Cache.Proof.SnoopHandshake

/-!
# Who is invalidated before a write

Write permission is given on three paths. Only one of them, the WRITE that hits a line MODIFIED
elsewhere, snoops anybody, and it snoops one core. The other two give the permission at once and leave
the remaining sharers their copies. A snoop reaches its core only if it was raised in a cycle that was
not frozen, so the history kept here is of those.
-/

namespace MultiCoreL2Cache

open BitSet Packed

variable {cfg : Config} {c : Cycle cfg} {s : Machine cfg} {core : cfg.Core}

/-- For each core the last snoop that was raised for it in a cycle that was not frozen. -/
abbrev Raised (cfg : Config) := cfg.Core → Option Snoop

/-- What a hit puts in its snoop; a READ puts its request type for the address. -/
def hitRaises (c : Cycle cfg) : Snoop :=
  if c.l2EntryPacket.reqType = .read then (c.l2EntryPacket.reqType.toBits.setWidth 32, .shared)
  else (c.l2EntryPacket.targetAddr, .invalid)

def Raised.step (o : Raised cfg) (s : Machine cfg) (c : Cycle cfg) : Raised cfg := fun core =>
  if c.reset then none
  else if s.Acts c then
    if hitTargets s.regs c core then some (hitRaises c)
    else if victimTargets s.regs c core then some (victimWait s.regs c)
    else o core
  else o core

abbrev Raised.run (s : Machine cfg) (input : Nat → Cycle cfg) : Nat → Raised cfg :=
  Clocked.history Machine.step Raised.step (fun _ => none) s input

/-- `snoop_req` shows every core the last snoop raised for it. -/
def Shows (r : Regs cfg) (o : Raised cfg) : Prop :=
  ∀ core addr state, o core = some (addr, state) →
    (r.snoopReq core).valid = true ∧ (r.snoopReq core).addr = addr ∧
      (r.snoopReq core).ownerState = state

theorem hitSnoop_shows (c : Cycle cfg) (old : SnoopReqPacket cfg) :
    (hitSnoop c old).valid = true ∧ (hitSnoop c old).addr = (hitRaises c).1 ∧
      (hitSnoop c old).ownerState = (hitRaises c).2 := by
  unfold hitSnoop hitRaises
  split <;> exact ⟨rfl, rfl, rfl⟩

theorem shows_step {o : Raised cfg} (h : Shows s.regs o) :
    Shows (s.step c).regs (o.step s c) := by
  intro core addr state hraised
  unfold Raised.step at hraised
  by_cases hreset : c.reset = true
  · rw [if_pos hreset] at hraised
    cases hraised
  · rw [if_neg hreset] at hraised
    by_cases hacts : s.Acts c
    · rw [if_pos hacts] at hraised
      rw [Machine.step_regs_of_acts hacts, Machine.settle, comb_snoopReq]
      by_cases hhit : hitTargets s.regs c core = true
      · rw [if_pos hhit] at hraised
        rw [if_pos hhit]
        have hsnoop := Option.some.inj hraised
        have hshows := hitSnoop_shows c
          (if victimTargets s.regs c core then
            snoopReqOf (c.readMeta (lruWay s.regs)).addr .invalid (s.regs.snoopReq core)
          else s.regs.snoopReq core)
        rw [hsnoop] at hshows
        exact hshows
      · rw [if_neg hhit] at hraised
        rw [if_neg hhit]
        by_cases hvictim : victimTargets s.regs c core = true
        · rw [if_pos hvictim] at hraised
          rw [if_pos hvictim]
          have hsnoop := Option.some.inj hraised
          rw [victimWait, Prod.mk.injEq] at hsnoop
          exact ⟨rfl, hsnoop.1, hsnoop.2⟩
        · rw [if_neg hvictim] at hraised
          rw [if_neg hvictim]
          exact h core addr state hraised
    · rw [if_neg hacts] at hraised
      rw [Machine.step_regs_of_frozen (by simpa using hreset) hacts]
      exact h core addr state hraised

theorem run_shows (s : Machine cfg) (input : Nat → Cycle cfg) (k : Nat) :
    Shows (s.run input k).regs (Raised.run s input k) :=
  Clocked.history_invariant Raised.step _ (fun s o => Shows s.regs o) (fun _ _ _ => True)
    (fun _ _ _ hraised => by cases hraised) (fun _ _ _ h _ => shows_step h) fun _ _ => trivial

def Regs.Invalidates (r : Regs cfg) (core : cfg.Core) (addr : Addr) : Prop :=
  (r.snoopReq core).valid = true ∧ (r.snoopReq core).ownerState = .invalid ∧
    (r.snoopReq core).addr = addr

instance (r : Regs cfg) (core : cfg.Core) (addr : Addr) : Decidable (r.Invalidates core addr) :=
  instDecidableAnd

def Responds (c : Cycle cfg) (core : cfg.Core) (addr : Addr) : Prop :=
  (c.snoopResp core).valid = true ∧ (c.snoopResp core).addr = addr

/-- Since the last reset before cycle `k` the core has been sent a snoop for `addr` and has answered
it. -/
def Invalidated (s : Machine cfg) (input : Nat → Cycle cfg) (k : Nat) (core : cfg.Core)
    (addr : Addr) : Prop :=
  ∃ i j, i ≤ j ∧ j ≤ k ∧ (∀ l, i ≤ l → l < k → (input l).reset = false) ∧
    (s.run input i).regs.Invalidates core addr ∧ Responds (input j) core addr

def GrantsWrite (s : Machine cfg) (c : Cycle cfg) : Prop :=
  s.Acts c ∧ (c.l2EntryPacket.reqType = .write ∨ c.l2EntryPacket.reqType = .upgrade) ∧
    hitAny c = true ∧ (servedLine s.regs c).isSome = true

instance (s : Machine cfg) (c : Cycle cfg) : Decidable (GrantsWrite s c) := instDecidableAnd

def OtherSharer (c : Cycle cfg) (core : cfg.Core) : Prop :=
  (c.readMeta (hitWay c)).Shares core ∧ core ≠ c.l2EntryPacket.coreId

instance (c : Cycle cfg) (core : cfg.Core) : Decidable (OtherSharer c core) := instDecidableAnd

/-- In cycle `k` nobody gets write permission while another core still has the line. -/
def SingleWriterAt (s : Machine cfg) (input : Nat → Cycle cfg) (k : Nat) : Prop :=
  GrantsWrite (s.run input k) (input k) → ∀ core, OtherSharer (input k) core →
    Invalidated s input k core (input k).l2EntryPacket.targetAddr

/-- The only other sharer is the owner that a WRITE snoops, and that snoop is also the last one that
was raised for it before. -/
def SnoopsOthers (s : Machine cfg) (o : Raised cfg) (c : Cycle cfg) : Prop :=
  GrantsWrite s c → ∀ core, OtherSharer c core →
    c.l2EntryPacket.reqType = .write ∧ modifiedElsewhere c (hitWay c) = true ∧
      targetCore (c.readMeta (hitWay c)) = some core ∧
      o core = some (c.l2EntryPacket.targetAddr, .invalid)

instance (s : Machine cfg) (o : Raised cfg) (c : Cycle cfg) : Decidable (SnoopsOthers s o c) :=
  inferInstanceAs (Decidable (_ → _))

theorem hitAnswered_of_grantsWrite (hgrant : GrantsWrite s c)
    (hkind : c.l2EntryPacket.reqType = .write)
    (hmod : modifiedElsewhere c (hitWay c) = true) : hitAnswered c = true := by
  obtain ⟨-, -, hhit, hserved⟩ := hgrant
  unfold servedLine at hserved
  cases hstall : stalled s.regs c with
  | true => simp [hstall] at hserved
  | false =>
      cases hans : hitAnswered c with
      | true => rfl
      | false => simp [hstall, hkind, hhit, hmod, hans] at hserved

theorem responds_of_hitAnswered (h : hitAnswered c = true)
    (htarget : targetCore (c.readMeta (hitWay c)) = some core) :
    Responds c core c.l2EntryPacket.targetAddr := by
  unfold hitAnswered at h
  rw [htarget] at h
  simpa [snoopAnswers, Responds] using h

/-- **Single writer, in runs in which every other sharer is the owner that a WRITE snoops.** -/
theorem single_writer (s : Machine cfg) (input : Nat → Cycle cfg)
    (hsnoops : ∀ k, SnoopsOthers (s.run input k) (Raised.run s input k) (input k)) (k : Nat) :
    SingleWriterAt s input k := by
  intro hgrant core hother
  obtain ⟨hkind, hmod, htarget, hraised⟩ := hsnoops k hgrant core hother
  obtain ⟨hvalid, haddr, hstate⟩ := run_shows s input k core _ _ hraised
  have hanswered := hitAnswered_of_grantsWrite hgrant hkind hmod
  have hrunning : ∀ l, k ≤ l → l < k → (input l).reset = false :=
    fun l hkl hlk => absurd hlk hkl.not_gt
  exact ⟨k, k, le_rfl, le_rfl, hrunning, ⟨hvalid, hstate, haddr⟩,
    responds_of_hitAnswered hanswered htarget⟩

/-- A refill evicts a dirty line and so asks every core to drop it. Core 0 then writes the line, which
core 1 has in MODIFIED. -/
def evictThenWrite : Nat → Cycle .shipped
  | 0 => { Cycle.idle .shipped with
      toDrive := { Drive.response .shipped 7#512 with
        snoopResp := fun core => ⟨true, 0x10040, 0#512, core⟩ }
      readMeta := fun _ => ⟨true, true, 0b0001, .shared, 0x10040⟩ }
  | 1 => { Cycle.idle .shipped with
      toDrive := { Drive.request .write 0x10040 0 with
        snoopResp := fun core => ⟨true, 0x10040, 5#512, core⟩ }
      readMeta := fun _ => ⟨true, false, 0b0010, .modified, 0x10040⟩ }
  | _ + 2 => .idle _

theorem evictThenWrite_singleWriter :
    SingleWriterAt (Machine.fresh .shipped) evictThenWrite 1 := by
  refine single_writer _ evictThenWrite (fun j => ?_) 1
  match j with
  | 0 => decide +kernel
  | 1 => decide +kernel
  | _ + 2 =>
      have hmiss : hitAny (Cycle.idle .shipped) = false := by decide
      exact fun hgrant => absurd hgrant.2.2.1 (by rw [evictThenWrite, hmiss]; decide)

/-- Core 0 upgrades a line that core 1 shares. -/
def upgradeShared : Nat → Cycle .shipped
  | 0 => { Cycle.idle .shipped with
      toDrive := .request .upgrade 0x10040 0
      readMeta := fun _ => ⟨true, false, 0b0011, .shared, 0x10040⟩ }
  | _ + 1 => .idle _

theorem two_writers :
    ¬∀ (cfg : Config) (s : Machine cfg) (input : Nat → Cycle cfg) (k : Nat),
      s.AfterReset → SingleWriterAt s input k := by
  intro hclaim
  have hsingle := hclaim .shipped (.fresh _) upgradeShared 0 (Machine.fresh_afterReset _)
  obtain ⟨i, j, hij, hj, -, hsent, -⟩ := hsingle (by decide +kernel) 1 (by decide +kernel)
  obtain rfl : i = 0 := by omega
  exact absurd hsent.1 (by decide +kernel)

end MultiCoreL2Cache
