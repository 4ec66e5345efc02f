import MultiCoreL2Cache.Model.Testbench
import MultiCoreL2Cache.Proof.Replies

/-!
# Responses without a handshake

The block takes a response on its valid bit alone. No statement drives `r_ready` and `b_ready`, so a
response is never acknowledged, and the monitor reports none of those that retire an MSHR.
-/

namespace MultiCoreL2Cache

open Packed

variable {cfg : Config} {s : Machine cfg} {c : Cycle cfg}

/-! ### What retires an MSHR -/

def headValid (s : Machine cfg) : Bool := (mshrAt s.regs.mshrs s.regs.waitIdx).valid

instance (i : Fin cfg.numMshrs) (addr : Addr) (data : CacheLine) :
    Decidable (Evicts s c i addr data) :=
  decidable_of_iff (s.Acts c ∧ victimAllocates s.regs c = true ∧
      (victimEntry s.regs c).addr = addr ∧ (victimEntry s.regs c).data = data ∧
        (s.step c).regs.mshrs i = victimEntry s.regs c)
    ⟨fun ⟨h, h', haddr, hdata, hfills⟩ => ⟨h, h', haddr, hdata, hfills⟩,
      fun h => ⟨h.acts, h.victim, h.addr, h.data, h.fills⟩⟩

/-- The clock edge takes the valid entry at `wait_idx` out of the array: it leaves the slot invalid, or
fills it with the line that the refill evicts. -/
def HeadRetires (s : Machine cfg) (c : Cycle cfg) : Prop :=
  c.reset = false ∧ ∃ i : Fin cfg.numMshrs, i.val = s.regs.waitIdx.toNat ∧
    (s.regs.mshrs i).valid = true ∧ (((s.step c).regs.mshrs i).valid = false ∨
      Evicts s c i (victimEntry s.regs c).addr (victimEntry s.regs c).data)

instance (s : Machine cfg) (c : Cycle cfg) : Decidable (HeadRetires s c) := instDecidableAnd

def RetiresByRead (s : Machine cfg) (c : Cycle cfg) : Prop :=
  c.rPacket.rValid = true ∧ HeadRetires s c

def RetiresByWrite (s : Machine cfg) (c : Cycle cfg) : Prop :=
  c.bPacket.bValid = true ∧ HeadRetires s c

instance (s : Machine cfg) (c : Cycle cfg) : Decidable (RetiresByRead s c) := instDecidableAnd

instance (s : Machine cfg) (c : Cycle cfg) : Decidable (RetiresByWrite s c) := instDecidableAnd

/-- A miss does not fill a slot that is in use. -/
theorem step_valid_slot (hacts : s.Acts c) {i : Fin cfg.numMshrs}
    (hvalid : (s.regs.mshrs i).valid = true) :
    (s.step c).regs.mshrs i = dramMshrs s.regs c i := by
  rw [Machine.step_regs_of_acts hacts, Machine.settle, comb_mshrs]
  by_cases halloc : missAllocates s.regs c s.nets.mshrExists = true
  · have hfree := (missAllocates_eq_true.mp halloc).2.2
    have hne : i.val ≠ s.regs.freeIdx.toNat := by
      intro heq
      rw [mshrAt_of_lt _ (heq ▸ i.isLt)] at hfree
      have hslot : (⟨s.regs.freeIdx.toNat, heq ▸ i.isLt⟩ : Fin cfg.numMshrs) = i := Fin.ext heq.symm
      rw [hslot, hvalid] at hfree
      cases hfree
    rw [if_pos halloc, assign_apply, if_neg hne]
  · rw [if_neg halloc]

/-- The head retires in the cycles that act and bring a response for it. -/
theorem headRetires_iff (hresp : (c.rPacket.rValid || c.bPacket.bValid) = true) :
    HeadRetires s c ↔ s.Acts c ∧ headValid s = true := by
  constructor
  · rintro ⟨hreset, i, hi, hvalid, hgone⟩
    have hhead : headValid s = true := by
      rw [headValid, mshrAt_of_lt _ (hi ▸ i.isLt)]
      exact (congrArg (fun i => (s.regs.mshrs i).valid) (Fin.ext hi)).symm.trans hvalid
    refine ⟨?_, hhead⟩
    by_contra hfrozen
    rw [Machine.step_regs_of_frozen hreset hfrozen, hvalid] at hgone
    rcases hgone with hinvalid | hevicts
    · cases hinvalid
    · exact hfrozen hevicts.acts
  · rintro ⟨hacts, hhead⟩
    have hlt := lt_of_mshrAt_valid hhead
    rw [headValid, mshrAt_of_lt _ hlt] at hhead
    have hentry := step_valid_slot hacts hhead
    refine ⟨hacts.1, ⟨_, hlt⟩, rfl, hhead, ?_⟩
    unfold dramMshrs at hentry
    by_cases hvictim : victimAllocates s.regs c = true
    · rw [if_pos hvictim, assign_apply] at hentry
      by_cases hi : s.regs.waitIdx.toNat = s.regs.freeIdx.toNat
      · rw [if_pos hi] at hentry
        exact .inr ⟨hacts, hvictim, rfl, rfl, hentry⟩
      · rw [if_neg hi, retiredMshrs_self hresp rfl] at hentry
        exact .inl (by rw [hentry])
    · rw [if_neg hvictim, retiredMshrs_self hresp rfl] at hentry
      exact .inl (by rw [hentry])

/-! ### What the monitor sees of it -/

def MonitorBus.events (bus : MonitorBus cfg) (chan : MemChan) : List MemTxn :=
  bus.apMem.filter fun t => t.chan = chan

/-- A response retires the head exactly in a handshake, and the monitor reports each such cycle
once. -/
structure Handshakes (s : Machine cfg) (c : Cycle cfg) : Prop where
  read : RetiresByRead s c ↔ c.rPacket.rValid = true ∧ rReady = .one
  write : RetiresByWrite s c ↔ c.bPacket.bValid = true ∧ bReady = .one
  readEvents : ((s.bus c).events .r).length = if RetiresByRead s c then 1 else 0
  writeEvents : ((s.bus c).events .b).length = if RetiresByWrite s c then 1 else 0

theorem filter_chan (p : Prop) [Decidable p] (t : MemTxn) (chan : MemChan) :
    (if p then [t] else []).filter (fun u => decide (u.chan = chan)) =
      if p ∧ t.chan = chan then [t] else [] := by
  by_cases hp : p
  · by_cases hchan : t.chan = chan <;> simp [hp, hchan]
  · simp [hp]

theorem events_r (bus : MonitorBus cfg) :
    bus.events .r =
      if bus.rPacket.rValid ∧ bus.rReady = .one then [⟨.r, 0, bus.rPacket.rData⟩] else [] := by
  unfold MonitorBus.events MonitorBus.apMem
  simp only [List.filter_append, filter_chan]
  simp

theorem events_b (bus : MonitorBus cfg) :
    bus.events .b = if bus.bPacket.bValid ∧ bus.bReady = .one then [⟨.b, 0, 0#512⟩] else [] := by
  unfold MonitorBus.events MonitorBus.apMem
  simp only [List.filter_append, filter_chan]
  simp

theorem events_r_bus : (s.bus c).events .r = [] := by
  rw [events_r]
  exact if_neg fun h => nomatch h.2

theorem events_b_bus : (s.bus c).events .b = [] := by
  rw [events_b]
  exact if_neg fun h => nomatch h.2

theorem handshakes_iff_step : Handshakes s c ↔ ¬RetiresByRead s c ∧ ¬RetiresByWrite s c := by
  constructor
  · intro h
    refine ⟨fun hread => ?_, fun hwrite => ?_⟩
    · cases (h.read.mp hread).2
    · cases (h.write.mp hwrite).2
  · rintro ⟨hread, hwrite⟩
    refine ⟨iff_of_false hread (fun h => nomatch h.2),
      iff_of_false hwrite (fun h => nomatch h.2), ?_, ?_⟩
    · rw [events_r_bus, if_neg hread]
      rfl
    · rw [events_b_bus, if_neg hwrite]
      rfl

/-- A response comes only when it finds no valid MSHR at `wait_idx`, in a frozen cycle or with a
reset. -/
def NothingToRetire (s : Machine cfg) (c : Cycle cfg) : Prop :=
  c.rPacket.rValid = true ∨ c.bPacket.bValid = true → s.Acts c → headValid s = false

theorem nothingToRetire_iff :
    NothingToRetire s c ↔ ¬RetiresByRead s c ∧ ¬RetiresByWrite s c := by
  have hretires : c.rPacket.rValid = true ∨ c.bPacket.bValid = true →
      (HeadRetires s c ↔ s.Acts c ∧ headValid s = true) := fun hresp =>
    headRetires_iff ((Bool.or_eq_true _ _).mpr hresp)
  constructor
  · intro hnothing
    refine ⟨fun hread => ?_, fun hwrite => ?_⟩
    · obtain ⟨hacts, hhead⟩ := (hretires (.inl hread.1)).mp hread.2
      exact Bool.false_ne_true ((hnothing (.inl hread.1) hacts).symm.trans hhead)
    · obtain ⟨hacts, hhead⟩ := (hretires (.inr hwrite.1)).mp hwrite.2
      exact Bool.false_ne_true ((hnothing (.inr hwrite.1) hacts).symm.trans hhead)
  · rintro ⟨hread, hwrite⟩ hresp hacts
    by_contra hhead
    have hgone := (hretires hresp).mpr ⟨hacts, by simpa using hhead⟩
    exact hresp.elim (fun hr => hread ⟨hr, hgone⟩) fun hb => hwrite ⟨hb, hgone⟩

/-- **Responses are consumed by handshakes only in runs in which they find nothing to retire.** -/
theorem handshakes_iff (s : Machine cfg) (input : Nat → Cycle cfg) :
    (∀ k, Handshakes (s.run input k) (input k)) ↔ ∀ k, NothingToRetire (s.run input k) (input k) :=
  forall_congr' fun _ => handshakes_iff_step.trans nothingToRetire_iff.symm

theorem response_not_acknowledged :
    ¬∀ (s : System .shipped) (input : Nat → Drive .shipped), s.AfterReset →
      ∀ k, Handshakes (s.toMachine.run (s.cycles input) k) (s.cycles input k) := by
  intro hclaim
  have hhandshakes := hclaim (.fresh _) missAndRefill ⟨rfl, rfl⟩ 1
  have hretires : RetiresByRead ((System.fresh .shipped).toMachine.run
      ((System.fresh .shipped).cycles missAndRefill) 1)
      ((System.fresh .shipped).cycles missAndRefill 1) := by
    decide +kernel
  cases (hhandshakes.read.mp hretires).2

end MultiCoreL2Cache
