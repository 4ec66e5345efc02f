import MultiCoreL2Cache.Proof.CombEffects

/-!
# The snoop handshake

A request to a core should stand in `snoop_req` for as long as the cache waits for the answer. The
flag that says so, `waiting`, also holds the register that should carry the request: while the cache
waits the request never reaches its output, and once the answer is there the request is loaded and
nothing takes it back. The handshake therefore holds only in runs that snoop nobody.
-/

namespace MultiCoreL2Cache

variable {cfg : Config} {s : Machine cfg} {c : Cycle cfg} {core : cfg.Core}

abbrev Snoop := Addr × OwnerState

/-- For each core the snoop that the cache is waiting for. -/
abbrev Waits (cfg : Config) := cfg.Core → Option Snoop

def Waits.none (cfg : Config) : Waits cfg := fun _ => Option.none

def hitWait (c : Cycle cfg) : Snoop :=
  (c.l2EntryPacket.targetAddr, if c.l2EntryPacket.reqType = .read then .shared else .invalid)

def victimWait (r : Regs cfg) (c : Cycle cfg) : Snoop := ((c.readMeta (lruWay r)).addr, .invalid)

def Waits.step (o : Waits cfg) (s : Machine cfg) (c : Cycle cfg) : Waits cfg := fun core =>
  if c.reset = true ∨ s.Acts c then Option.none
  else if hitTargets s.regs c core then some (hitWait c)
  else if victimTargets s.regs c core then some (victimWait s.regs c)
  else o core

abbrev Waits.run (s : Machine cfg) (input : Nat → Cycle cfg) : Nat → Waits cfg :=
  Clocked.history Machine.step Waits.step (Waits.none cfg) s input

variable {o : Waits cfg}

end MultiCoreL2Cache
