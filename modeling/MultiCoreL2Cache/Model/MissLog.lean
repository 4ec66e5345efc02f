import MultiCoreL2Cache.Library.Ring
import MultiCoreL2Cache.Model.Clock

/-!
# A log of misses

What is left of the cache when no lookup hits: READs and WRITEs of unstalled cores are entered in a log,
and DRAM is asked for them one after another. The log is not translated from the source. It says what the
MSHR array with its two pointers, the three packets to DRAM and the stall bits are for, and `regs` is
the contents that they have then.
-/

namespace MultiCoreL2Cache

variable {cfg : Config}

structure Miss (cfg : Config) where
  addr : Addr
  coreId : cfg.Core
  writeReq : Bool
deriving DecidableEq

def L2EntryPacket.toMiss (entry : L2EntryPacket cfg) : Miss cfg where
  addr := entry.targetAddr
  coreId := entry.coreId
  writeReq := entry.reqType == .write

/-- An MSHR that this miss has filled. It brings no data. -/
def Miss.entry (x : Miss cfg) (valid : Bool) : Mshr cfg where
  valid := valid
  addr := x.addr
  data := 0#512
  coreId := x.coreId
  writeReq := x.writeReq

/-- The misses that got an MSHR since the last reset, oldest first, how many of them DRAM has answered,
whether a miss has ever found its address, which cores are stalled, and what DRAM is asked for. -/
structure MissLog (cfg : Config) where
  accepted : List (Miss cfg)
  retired : Nat
  matched : Bool
  stall : cfg.Core → Bool
  ar : Option Addr
  aw : Option Addr
  w : Bool
  retired_le : retired ≤ accepted.length
  length_le : accepted.length ≤ retired + cfg.numMshrs

namespace MissLog

def start (matched : Bool) : MissLog cfg where
  accepted := []
  retired := 0
  matched := matched
  stall _ := false
  ar := none
  aw := none
  w := false
  retired_le := Nat.le_refl 0
  length_le := Nat.zero_le _

def Outstanding (m : MissLog cfg) : Prop := m.retired < m.accepted.length

instance (m : MissLog cfg) : Decidable m.Outstanding := Nat.decLt _ _

def Full (m : MissLog cfg) : Prop := m.retired + cfg.numMshrs ≤ m.accepted.length

instance (m : MissLog cfg) : Decidable m.Full := Nat.decLe _ _

/-- The last `NUM_MSHRS` misses, answered or not. Slots that no miss has filled yet stand for address
0. -/
def Holds (m : MissLog cfg) (a : Addr) : Prop :=
  (∃ x ∈ m.accepted.drop (m.accepted.length - cfg.numMshrs), x.addr = a) ∨
    m.accepted.length < cfg.numMshrs ∧ a = 0

instance (m : MissLog cfg) (a : Addr) : Decidable (m.Holds a) := instDecidableOr

variable (m : MissLog cfg) (d : Drive cfg)

def asks : Bool :=
  !m.stall d.l2EntryPacket.coreId &&
    decide (d.l2EntryPacket.reqType = .read ∨ d.l2EntryPacket.reqType = .write)

def finds : Bool := m.asks d && decide (m.Holds d.l2EntryPacket.targetAddr)

def accepts : Bool :=
  m.asks d && !(m.matched || decide (m.Holds d.l2EntryPacket.targetAddr)) && !decide m.Full

def answered : Bool := (d.rPacket.rValid || d.bPacket.bValid) && decide m.Outstanding

def retiredAfter : Nat := if m.answered d then m.retired + 1 else m.retired

/-- The miss that DRAM is asked for. One that joins in this cycle is not among them yet. -/
def head : Option (Miss cfg) := m.accepted[m.retiredAfter d]?

def readHead : Option Addr := ((m.head d).filter fun x => !x.writeReq).map Miss.addr

def writeHead : Option Addr := ((m.head d).filter fun x => x.writeReq).map Miss.addr

def acceptedAfter : List (Miss cfg) :=
  if m.accepts d then m.accepted ++ [d.l2EntryPacket.toMiss] else m.accepted

theorem retired_le_retiredAfter : m.retired ≤ m.retiredAfter d := by
  unfold retiredAfter
  split <;> omega

theorem retiredAfter_le : m.retiredAfter d ≤ m.accepted.length := by
  have hle := m.retired_le
  unfold retiredAfter
  split
  · rename_i hanswered
    unfold answered at hanswered
    simp only [Bool.and_eq_true, decide_eq_true_eq] at hanswered
    exact hanswered.2
  · exact hle

theorem length_le_acceptedAfter : m.accepted.length ≤ (m.acceptedAfter d).length := by
  unfold acceptedAfter
  split
  · simp
  · exact Nat.le_refl _

theorem not_full_of_accepts {m : MissLog cfg} {d : Drive cfg} (h : m.accepts d = true) :
    ¬m.Full := by
  unfold accepts at h
  simp only [Bool.and_eq_true, Bool.not_eq_true', decide_eq_false_iff_not] at h
  exact h.2

theorem length_acceptedAfter_le : (m.acceptedAfter d).length ≤ m.retired + cfg.numMshrs := by
  have hle := m.length_le
  unfold acceptedAfter
  split
  · rename_i haccepts
    have hroom : ¬m.Full := not_full_of_accepts haccepts
    unfold Full at hroom
    rw [List.length_append, List.length_singleton]
    omega
  · exact hle

/-- The log after a cycle without a reset. -/
def next : MissLog cfg where
  accepted := m.acceptedAfter d
  retired := m.retiredAfter d
  matched := m.matched || m.finds d
  stall core :=
    m.stall core || (decide (core = d.l2EntryPacket.coreId) && (m.asks d && !m.accepts d))
  ar := if d.arReady then (m.readHead d).or m.ar else m.ar
  aw := if d.awReady then (m.writeHead d).or m.aw else m.aw
  w := m.w || (d.wReady && (m.writeHead d).isSome)
  retired_le := (m.retiredAfter_le d).trans (m.length_le_acceptedAfter d)
  length_le := (m.length_acceptedAfter_le d).trans
    (Nat.add_le_add_right (m.retired_le_retiredAfter d) _)

theorem accepted_of_accepts {m : MissLog cfg} {d : Drive cfg} (h : m.accepts d = true) :
    (m.next d).accepted = m.accepted ++ [d.l2EntryPacket.toMiss] := if_pos h

theorem accepted_of_not_accepts {m : MissLog cfg} {d : Drive cfg} (h : ¬m.accepts d = true) :
    (m.next d).accepted = m.accepted := if_neg h

/-- A reset forgets the log, but not that a miss has found its address. -/
def step : MissLog cfg := if d.reset then start (m.matched || m.finds d) else m.next d

abbrev run (m : MissLog cfg) (input : Nat → Drive cfg) : Nat → MissLog cfg :=
  Clocked.run step m input

/-! ### What the log is kept in -/

/-- Slot `i` keeps the last miss that came to it, valid until it is answered. -/
def slot (i : Fin cfg.numMshrs) : Mshr cfg :=
  match Ring.latest cfg.numMshrs i m.accepted.length with
  | some j =>
      match m.accepted[j]? with
      | some x => x.entry (decide (m.retired ≤ j))
      | none => .zero cfg
  | none => .zero cfg

/-- The registers of a cache with this log. The replacement state is not in it. -/
def regs (lrus : Fin cfg.numSets → cfg.Way → cfg.Lru) : Regs cfg where
  l2ExitPacket core := { L2ExitPacket.zero with stall := m.stall core }
  snoopReq _ := .zero cfg
  mshrs := m.slot
  freeIdx := BitVec.ofNat 3 (m.accepted.length % cfg.numMshrs)
  waitIdx := BitVec.ofNat 3 (m.retired % cfg.numMshrs)
  awPacket :=
    match m.aw with
    | some addr => { awAddr := addr, awValid := true, awProt := 0 }
    | none => .zero
  wPacket := if m.w then { wData := 0#512, wValid := true, wStrb := BitVec.allOnes 64 } else .zero
  arPacket :=
    match m.ar with
    | some addr => { arAddr := addr, arValid := true, arProt := 0 }
    | none => .zero
  lrus := lrus

end MissLog

end MultiCoreL2Cache
