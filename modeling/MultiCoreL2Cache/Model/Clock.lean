import MultiCoreL2Cache.Library.Clocked
import MultiCoreL2Cache.Model.Comb

/-!
# One clock cycle of `L2Cache`

Here the memories are left open: a cycle brings any data and any metadata on the ways' ports.
`System` closes the loop through the memories.

A cycle begins with a clock edge. The inputs change together with the registers, and `always_comb` is
evaluated once on the new values of both; it is not evaluated in between, with the new registers and the
inputs of the cycle before. The nets that it leaves are what the next clock edge loads.
-/

namespace MultiCoreL2Cache

structure Machine (cfg : Config) where
  regs : Regs cfg
  nets : Nets cfg

variable {cfg : Config}

def clocked (reset : Bool) (r : Regs cfg) (n : Nets cfg) : Regs cfg :=
  if reset then .reset cfg else if n.waiting then r else n.next

namespace Machine

def settle (s : Machine cfg) (c : Cycle cfg) : Nets cfg := comb s.regs c s.nets

def step (s : Machine cfg) (c : Cycle cfg) : Machine cfg where
  regs := clocked c.reset s.regs (s.settle c)
  nets := s.settle c

abbrev run (s : Machine cfg) (input : Nat → Cycle cfg) : Nat → Machine cfg :=
  Clocked.run step s input

/-- Any state that a clock edge with `reset` can leave: the registers are cleared, the nets are
not. -/
def AfterReset (s : Machine cfg) : Prop := s.regs = .reset cfg

/-- The clock edge of cycle `c` loads the `next_` nets. -/
def Acts (s : Machine cfg) (c : Cycle cfg) : Prop :=
  c.reset = false ∧ (s.settle c).waiting = false

instance (s : Machine cfg) (c : Cycle cfg) : Decidable (s.Acts c) := instDecidableAnd

/-- A machine right after reset whose nets never held anything else. A latch that was never assigned
is `x` in the source and zero here; an `if` takes both to its `else`. -/
def fresh (cfg : Config) : Machine cfg := ⟨.reset cfg, .zero cfg⟩

theorem fresh_afterReset (cfg : Config) : (fresh cfg).AfterReset := rfl

variable {s : Machine cfg} {c : Cycle cfg}

@[simp]
theorem step_nets : (s.step c).nets = s.settle c := rfl

theorem step_regs_of_reset (h : c.reset = true) : (s.step c).regs = .reset cfg := by
  simp [step, clocked, h]

theorem step_regs_of_acts (h : s.Acts c) : (s.step c).regs = (s.settle c).next := by
  simp [step, clocked, h.1, h.2]

theorem step_regs_of_frozen (hreset : c.reset = false) (h : ¬s.Acts c) :
    (s.step c).regs = s.regs := by
  have hwaiting : (s.settle c).waiting = true := by simpa [Acts, hreset] using h
  simp [step, clocked, hreset, hwaiting]

/-- What a cycle that acts does not change stays in every cycle without a reset. -/
theorem step_keeps {α : Type*} (f : Regs cfg → α) (hreset : c.reset = false)
    (hkeep : s.Acts c → f (s.settle c).next = f s.regs) : f (s.step c).regs = f s.regs := by
  by_cases hacts : s.Acts c
  · rw [step_regs_of_acts hacts]
    exact hkeep hacts
  · rw [step_regs_of_frozen hreset hacts]

/-- A property of the registers that a reset establishes and every legal cycle that acts keeps. -/
theorem run_regs_invariant (P : Regs cfg → Prop) (Legal : Machine cfg → Cycle cfg → Prop)
    {input : Nat → Cycle cfg} {k : Nat} (hstart : s.AfterReset) (hreset : P (.reset cfg))
    (hacts : ∀ s c, s.Acts c → P s.regs → Legal s c → P (s.settle c).next)
    (hlegal : ∀ j < k, Legal (s.run input j) (input j)) : P (s.run input k).regs := by
  refine Clocked.run_invariant (fun s : Machine cfg => P s.regs) Legal ?_ (fun s c hP hl => ?_) hlegal
  · rw [hstart]
    exact hreset
  · by_cases hrst : c.reset = true
    · rw [step_regs_of_reset hrst]
      exact hreset
    · by_cases h : s.Acts c
      · rw [step_regs_of_acts h]
        exact hacts s c h hP hl
      · rw [step_regs_of_frozen (by simpa using hrst) h]
        exact hP

end Machine

end MultiCoreL2Cache
