import MultiCoreL2Cache.Proof.Memories

/-!
# Frozen cycles

While the cache waits for a snoop its registers keep their values, so that the operation is made again
in the next cycle as if for the first time. The memories have no such gate: a refill that waits stores
in its data memory in every cycle of the wait, and so does every request that raises the enable of a
tag memory meanwhile.
-/

namespace MultiCoreL2Cache

variable {cfg : Config} {width : Nat} {s : WideSystem cfg width} {i : WideInput cfg width}

/-- The cycle changes neither the registers nor the memories. -/
structure Frozen (s : WideSystem cfg width) (i : WideInput cfg width) : Prop where
  regs : (s.step i).regs = s.regs
  data : ∀ w set, (s.step i).arrays.data w set = s.arrays.data w set
  tags : ∀ w set, (s.step i).arrays.tags w set = s.arrays.tags w set

/-- **A snoop wait freezes everything exactly where the writes of the cycle change nothing.** -/
theorem waiting_freezes_iff (s : WideSystem cfg width) (i : WideInput cfg width)
    (hsettles : s.Settles i) (hreset : i.drive.reset = false) (hwaiting : i.nets.waiting = true) :
    Frozen s i ↔ DataRewritten s i ∧ TagsRewritten s i := by
  have hregs := step_regs_of_waiting (s := s) hreset hwaiting
  have hdata := data_kept_iff hsettles hreset
  have htags := tags_kept_iff hsettles hreset
  constructor
  · intro hfrozen
    exact ⟨hdata.mp hfrozen.data, htags.mp hfrozen.tags⟩
  · rintro ⟨hsame, hsame'⟩
    exact ⟨hregs, hdata.mpr hsame, htags.mpr hsame'⟩

/-- A READ of 0x40 is outstanding, `waiting` is latched, and way 0 stores the line 5 in set 1. -/
def waitingLatched : System .shipped where
  regs := ((Machine.fresh .shipped).step
    { Cycle.idle .shipped with toDrive := .request .read 0x40 2 }).regs
  nets := { Nets.zero .shipped with waiting := true }
  arrays := { Arrays.zero .shipped with
    data := fun w set => if w = 0 ∧ set.val = 1 then 5#512 else 0#512 }

/-- The response to the READ, in the nets that the cycle settles in. -/
def refillWaits : WideInput .shipped Config.shipped.metaWidth :=
  WideSystem.ofDrive (.response _ 7#512) (waitingLatched.settled (.response _ 7#512))

theorem refillWaits_settles : (WideSystem.ofSystem waitingLatched).Settles refillWaits :=
  (WideSystem.settles_ofSystem_iff _ _ _).mpr ((waitingLatched.settles_iff _).mpr rfl)

theorem refillWaits_freezes_iff :
    Frozen (.ofSystem waitingLatched) refillWaits ↔
      DataRewritten (.ofSystem waitingLatched) refillWaits ∧
        TagsRewritten (.ofSystem waitingLatched) refillWaits :=
  waiting_freezes_iff _ _ refillWaits_settles rfl (by decide +kernel)

/-- The width is that of the source. -/
theorem waiting_overwrites :
    ¬∀ (cfg : Config) (s : WideSystem cfg cfg.metaWidth) (i : WideInput cfg cfg.metaWidth),
      s.Settles i → i.drive.reset = false → i.nets.waiting = true → Frozen s i := by
  intro hclaim
  have hfrozen := hclaim .shipped _ refillWaits refillWaits_settles rfl (by decide +kernel)
  exact absurd (hfrozen.data 0 ⟨1, by decide⟩) (by decide +kernel)

end MultiCoreL2Cache
