import MultiCoreL2Cache.Proof.Blind
import MultiCoreL2Cache.Proof.Origins

/-!
# Replies to the cores

A hit puts its line in the exit packet of its core and a refill is meant to do the same for the core
in the retiring MSHR. No statement drives `l2_exit_valid`, none sets the address in an exit packet,
and the refill leaves all exit packets alone, so no request is ever answered.
-/

namespace MultiCoreL2Cache

open Packed

variable {cfg : Config} {r : Regs cfg} {c : Cycle cfg} {n : Nets cfg} {s : Machine cfg}
  {o : Origins cfg} {core : cfg.Core}

/-- A READ or WRITE of `core` completes in this cycle: it hits and is served, or the response to its
miss retires the MSHR. -/
inductive Completes (s : Machine cfg) (o : Origins cfg) (c : Cycle cfg) (core : cfg.Core)
    (addr : Addr) (line : CacheLine) : Prop
  | hit (hacts : s.Acts c) (hhit : looksUp s.regs c = true)
      (hcore : c.l2EntryPacket.coreId = core) (haddr : c.l2EntryPacket.targetAddr = addr)
      (hline : servedLine s.regs c = some line)
  | refill (request : L2EntryPacket cfg) (hacts : s.Acts c) (hread : c.rPacket.rValid = true)
      (hvalid : (mshrAt s.regs.mshrs s.regs.waitIdx).valid = true)
      (horigin : o.at? s.regs.waitIdx = some (.miss request)) (hcore : request.coreId = core)
      (haddr : request.targetAddr = addr) (hline : c.rPacket.rData = line)

def Replied (r : Regs cfg) (core : cfg.Core) (addr : Addr) (line : CacheLine) : Prop :=
  l2ExitValid core = .one ∧ (r.l2ExitPacket core).cacheLine = line ∧
    (r.l2ExitPacket core).targetAddr = addr ∧ (r.l2ExitPacket core).stall = false

/-- After each cycle exactly the requests that completed in it are answered. -/
def AnswersAll (s : Machine cfg) (input : Nat → Cycle cfg) : Prop :=
  ∀ k core,
    (∀ addr line, Completes (s.run input k) (Origins.run s input k) (input k) core addr line →
      Replied (s.run input (k + 1)).regs core addr line) ∧
    (l2ExitValid core = .one →
      ∃ addr line, Completes (s.run input k) (Origins.run s input k) (input k) core addr line)

theorem not_replied (r : Regs cfg) (core : cfg.Core) (addr : Addr) (line : CacheLine) :
    ¬Replied r core addr line := by
  rintro ⟨hvalid, -⟩
  cases hvalid

/-- **Requests are answered only in runs in which none completes.** -/
theorem answersAll_iff (s : Machine cfg) (input : Nat → Cycle cfg) :
    AnswersAll s input ↔ ∀ k core addr line,
      ¬Completes (s.run input k) (Origins.run s input k) (input k) core addr line := by
  constructor
  · intro hanswers k core addr line hcompletes
    exact not_replied _ _ _ _ ((hanswers k core).1 addr line hcompletes)
  · intro hnone k core
    refine ⟨fun addr line hcompletes => absurd hcompletes (hnone k core addr line), ?_⟩
    intro hvalid
    cases hvalid

def missAndRefill : Nat → Drive .shipped
  | 0 => .request .read 0x40 1
  | 1 => .response _ 7#512
  | _ + 2 => .idle _

theorem miss_unanswered :
    ¬∀ (s : System .shipped) (input : Nat → Drive .shipped), s.AfterReset →
      AnswersAll s.toMachine (s.cycles input) := by
  intro hclaim
  have hanswers := hclaim (.fresh _) missAndRefill ⟨rfl, rfl⟩
  exact not_replied _ _ _ _ ((hanswers 1 1).1 0x40 7#512
    (.refill ⟨.read, 0#512, 0x40, 1⟩ (by decide +kernel) (by decide +kernel) (by decide +kernel)
      (by decide +kernel) rfl rfl (by decide +kernel)))

/-! ### What the exit packets do show -/

theorem step_targetAddr (hreset : c.reset = false) :
    ((s.step c).regs.l2ExitPacket core).targetAddr = (s.regs.l2ExitPacket core).targetAddr := by
  refine Machine.step_keeps (fun r => (r.l2ExitPacket core).targetAddr) hreset fun _ => ?_
  rw [Machine.settle, comb_l2ExitPacket]
  dsimp only
  split <;> rfl

/-- Every exit packet carries the address 0. -/
theorem run_targetAddr (hreset : s.AfterReset) (input : Nat → Cycle cfg) (k : Nat) :
    ((s.run input k).regs.l2ExitPacket core).targetAddr = 0 := by
  refine Machine.run_regs_invariant (fun r => (r.l2ExitPacket core).targetAddr = 0) (fun _ _ => True)
    hreset rfl (fun s c hacts haddr _ => ?_) fun _ _ => trivial
  rw [← Machine.step_regs_of_acts hacts, step_targetAddr hacts.1]
  exact haddr

/-- Only the request of the cycle changes an exit packet, and only that of its own core. The response
to a miss reaches none. -/
theorem step_exit_of_ne (hreset : c.reset = false) (hcore : core ≠ c.l2EntryPacket.coreId) :
    (s.step c).regs.l2ExitPacket core = s.regs.l2ExitPacket core := by
  refine Machine.step_keeps (fun r => r.l2ExitPacket core) hreset fun _ => ?_
  rw [Machine.settle, comb_l2ExitPacket]
  exact if_neg hcore

end MultiCoreL2Cache
