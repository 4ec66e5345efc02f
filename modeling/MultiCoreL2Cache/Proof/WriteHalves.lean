import MultiCoreL2Cache.Library.Channel
import MultiCoreL2Cache.Proof.MshrRing
import MultiCoreL2Cache.Proof.RefillIntegrity

/-!
# The two halves of a write

A write MSHR sends its address on AW and its line on W, each when its channel is ready. A packet stays
on its channel after it has been accepted, and the only cycles that replace it are those in which the
channel is ready, which accept it again. So the halves of a write pair up only as long as each channel
is accepted from once between two resets.
-/

namespace MultiCoreL2Cache

open Packed

variable {cfg : Config} {r : Regs cfg} {c : Cycle cfg} {s : Machine cfg}

/-! ### Which MSHR a handshake is for -/

def idAt (ids : Fin cfg.numMshrs → Nat) (idx : BitVec 3) : Nat := (select? ids idx.toNat).getD 0

/-- Every allocation gets a number. The two channels record the number of the MSHR whose half they
show, and the numbers of those whose halves were accepted. -/
structure WriteLog (cfg : Config) where
  allocations : Nat
  ids : Fin cfg.numMshrs → Nat
  addr : Channel.Log Nat
  line : Channel.Log Nat

namespace WriteLog

def start (cfg : Config) : WriteLog cfg := ⟨0, fun _ => 0, .start 0, .start 0⟩

/-- The MSHR whose half a channel shows after a clock edge that loads the channel when `ready`. -/
def nextSource (g : WriteLog cfg) (s : Machine cfg) (c : Cycle cfg) (ready : Bool)
    (log : Channel.Log Nat) : Nat :=
  if issuesWrite s.regs c && ready then idAt g.ids (nextWaitIdx s.regs c) else log.source

def accept (g : WriteLog cfg) (s : Machine cfg) (c : Cycle cfg) (addrSource lineSource : Nat) :
    WriteLog cfg :=
  { g with
    addr := g.addr.step (acceptsWriteAddr s c) addrSource
    line := g.line.step (acceptsWriteLine s c) lineSource }

def allocate (g : WriteLog cfg) (s : Machine cfg) (c : Cycle cfg) : WriteLog cfg :=
  if allocates s c then
    { g with
      allocations := g.allocations + 1
      ids := assign g.ids s.regs.freeIdx.toNat fun _ => g.allocations }
  else g

def step (g : WriteLog cfg) (s : Machine cfg) (c : Cycle cfg) : WriteLog cfg :=
  let held := g.accept s c g.addr.source g.line.source
  if c.reset then { held with addr := held.addr.restart, line := held.line.restart }
  else if s.Acts c then
    (g.allocate s c).accept s c (g.nextSource s c c.awReady g.addr)
      (g.nextSource s c c.wReady g.line)
  else held

abbrev run (s : Machine cfg) (input : Nat → Cycle cfg) : Nat → WriteLog cfg :=
  Clocked.history Machine.step step (start cfg) s input

/-- The write MSHR at `wait_idx`. -/
def due (g : WriteLog cfg) (r : Regs cfg) : Option Nat :=
  if r.head.valid && r.head.writeReq then some (idAt g.ids r.waitIdx) else none

end WriteLog

/-! ### The environment -/

/-- Both halves of the write MSHR at `wait_idx` have been accepted. -/
def BothAccepted (r : Regs cfg) (g : WriteLog cfg) : Prop :=
  ∀ id ∈ g.due r, id ∈ g.addr.taken ∧ id ∈ g.line.taken

instance (r : Regs cfg) (g : WriteLog cfg) : Decidable (BothAccepted r g) :=
  inferInstanceAs (Decidable (∀ _ ∈ _, _))

/-- DRAM raises `b_valid` for a write MSHR only after it has accepted both halves. -/
def AcksAccepted (s : Machine cfg) (g : WriteLog cfg) (c : Cycle cfg) : Prop :=
  c.bPacket.bValid = true → BothAccepted s.regs g

instance (s : Machine cfg) (g : WriteLog cfg) (c : Cycle cfg) : Decidable (AcksAccepted s g c) :=
  inferInstanceAs (Decidable (_ → _))

/-- A channel from which DRAM has accepted a packet is not accepted from again before the next reset,
and a reset finds both halves accepted or neither. A response comes only for a valid MSHR, and
`r_valid` not for a write with a half missing. -/
@[mk_iff]
structure TakesOnce (s : Machine cfg) (g : WriteLog cfg) (c : Cycle cfg) : Prop where
  addr : acceptsWriteAddr s c = true → g.addr.since = []
  line : acceptsWriteLine s c = true → g.line.since = []
  reset : c.reset = true →
    ((g.addr.since = [] ∧ acceptsWriteAddr s c = false) ↔
      (g.line.since = [] ∧ acceptsWriteLine s c = false))
  responds : RespondsToHead s c
  read : c.rPacket.rValid = true → BothAccepted s.regs g

instance (s : Machine cfg) (g : WriteLog cfg) (c : Cycle cfg) : Decidable (TakesOnce s g c) :=
  decidable_of_iff' _ (takesOnce_iff s g c)

/-! ### The head and its number -/

theorem idAt_of_lt (ids : Fin cfg.numMshrs → Nat) {idx : BitVec 3}
    (h : idx.toNat < cfg.numMshrs) : idAt ids idx = ids ⟨idx.toNat, h⟩ := by
  rw [idAt, select?_of_lt _ h]
  rfl

theorem idAt_assign_of_ne (ids : Fin cfg.numMshrs → Nat) (f : Nat → Nat) {idx : BitVec 3} {i : Nat}
    (h : idx.toNat ≠ i) : idAt (assign ids i f) idx = idAt ids idx := by
  rw [idAt, select?_assign, if_neg h]
  rfl

section Ring

variable (hsize : cfg.numMshrs = cfg.ways) (hle : cfg.numMshrs ≤ 8) (hm : 1 < cfg.numMshrs)
  (hqueue : ∃ queue, s.regs.Queue queue)
include hsize hle hm hqueue

theorem due_of_issues (g : WriteLog cfg) (hacts : s.Acts c) (hissues : issuesWrite s.regs c = true) :
    (g.allocate s c).due (s.step c).regs = some (idAt g.ids (nextWaitIdx s.regs c)) := by
  have hissues' := hissues
  unfold issuesWrite at hissues'
  have hvalid := ((Bool.and_eq_true _ _).mp hissues').1
  have hwait : (s.step c).regs.waitIdx = nextWaitIdx s.regs c := by
    rw [Machine.step_regs_of_acts hacts, Machine.settle, comb_waitIdx]
  have hid : idAt (g.allocate s c).ids (nextWaitIdx s.regs c) =
      idAt g.ids (nextWaitIdx s.regs c) := by
    unfold WriteLog.allocate
    by_cases halloc : allocates s c = true
    · rw [if_pos halloc]
      exact idAt_assign_of_ne g.ids (fun _ => g.allocations)
        (next_ne_free hsize hle hm hqueue halloc hvalid)
    · rw [if_neg halloc]
  rw [WriteLog.due, step_head_eq hsize hle hm hqueue hacts hvalid, if_pos hissues', hwait,
    hid]

end Ring

/-! ### One cycle -/

/-- No live MSHR has the number of one that was accepted before the last reset, and every number was
given out. -/
structure WriteLog.Ok (g : WriteLog cfg) (r : Regs cfg) : Prop where
  queue : ∃ queue, r.Queue queue
  halves : Channel.Sound g.addr g.line (r.awPacket.awValid = true) (r.wPacket.wValid = true)
    (g.due r)
  taken : ∀ id ∈ g.addr.taken, id < g.allocations
  live : ∀ i, (r.mshrs i).valid = true → g.ids i < g.allocations ∧ g.ids i ∉ g.addr.before

namespace WriteLog

variable {g : WriteLog cfg}

theorem due_eq_some {id : Nat} (h : g.due r = some id) :
    r.head.valid = true ∧ r.head.writeReq = true ∧ id = idAt g.ids r.waitIdx := by
  unfold due at h
  by_cases hwrite : (r.head.valid && r.head.writeReq) = true
  · rw [if_pos hwrite] at h
    simp only [Bool.and_eq_true] at hwrite
    exact ⟨hwrite.1, hwrite.2, (Option.some.inj h).symm⟩
  · rw [if_neg hwrite] at h
    cases h

theorem due_live {old : List Nat} {id : Nat}
    (hlive : ∀ i, (r.mshrs i).valid = true → g.ids i < g.allocations ∧ g.ids i ∉ old)
    (hid : g.due r = some id) : id < g.allocations ∧ id ∉ old := by
  obtain ⟨hvalid, -, rfl⟩ := due_eq_some hid
  have hlt := lt_of_mshrAt_valid hvalid
  have hslot : (r.mshrs ⟨r.waitIdx.toNat, hlt⟩).valid = true := by
    rwa [Regs.head, mshrAt_of_lt _ hlt] at hvalid
  rw [idAt_of_lt _ hlt]
  exact hlive _ hslot

theorem due_reset (g : WriteLog cfg) : g.due (.reset cfg) = none := by
  have hlt : (0 : BitVec 3).toNat < cfg.numMshrs := cfg.numMshrs_pos
  have hhead : (Regs.reset cfg).head = .zero cfg := mshrAt_of_lt _ hlt
  rw [due, hhead]
  rfl

theorem ok_start (cfg : Config) : (start cfg).Ok (.reset cfg) where
  queue := ⟨[], queue_reset cfg⟩
  halves := by
    rw [due_reset]
    exact .start 0 0 (by simp [Regs.reset, AddressWritePacket.zero])
      (by simp [Regs.reset, WriteDataPacket.zero])
  taken id h := by cases h
  live i h := by cases h

theorem Ok.source_lt (h : g.Ok r) (hshown : r.awPacket.awValid = true) :
    g.addr.source < g.allocations := by
  cases h.halves.paired with
  | pending haddr _ => exact (due_live h.live (haddr.source hshown)).1
  | settled id _ haddr _ =>
      refine h.taken _ (List.mem_append_right _ ?_)
      rw [haddr.since, haddr.source]
      exact List.mem_singleton_self _

theorem Ok.step_taken (h : g.Ok s.regs) (source : Nat) :
    ∀ id ∈ (g.addr.step (acceptsWriteAddr s c) source).taken, id < g.allocations := by
  intro id hid
  rw [Channel.Log.taken_step] at hid
  rcases List.mem_append.mp hid with hold | hnew
  · exact h.taken id hold
  · by_cases haccept : acceptsWriteAddr s c = true
    · rw [if_pos haccept, List.mem_singleton] at hnew
      rw [hnew]
      exact h.source_lt ((Bool.and_eq_true _ _).mp haccept).1
    · rw [if_neg haccept] at hnew
      cases hnew

theorem Ok.step_live (h : g.Ok s.regs) (hacts : s.Acts c) (i : Fin cfg.numMshrs)
    (hvalid : ((s.step c).regs.mshrs i).valid = true) :
    (g.allocate s c).ids i < (g.allocate s c).allocations ∧
      (g.allocate s c).ids i ∉ g.addr.before := by
  rw [Machine.step_regs_of_acts hacts, Machine.settle] at hvalid
  unfold allocate allocates
  by_cases hfree : i.val = s.regs.freeIdx.toNat ∧
      (missAllocates s.regs c s.nets.mshrExists || victimAllocates s.regs c) = true
  · rw [if_pos hfree.2]
    simp only [assign_apply, if_pos hfree.1]
    exact ⟨Nat.lt_succ_self _, fun hold => Nat.lt_irrefl _ (h.taken _ (List.mem_append_left _ hold))⟩
  · rw [comb_mshrs_of_ne fun halloc heq => hfree ⟨heq, halloc⟩] at hvalid
    obtain ⟨hlt, hfresh⟩ := h.live i ((retiredMshrs_valid_iff i).mp hvalid).1
    by_cases halloc : (missAllocates s.regs c s.nets.mshrExists || victimAllocates s.regs c) = true
    · have hne : i.val ≠ s.regs.freeIdx.toNat := fun heq => hfree ⟨heq, halloc⟩
      rw [if_pos halloc]
      simp only [assign_apply, if_neg hne]
      exact ⟨Nat.lt_succ_of_lt hlt, hfresh⟩
    · rw [if_neg halloc]
      exact ⟨hlt, hfresh⟩

/-- A channel is loaded in a cycle in which a write is issued and the channel is ready, and a ready
channel takes what it shows. -/
theorem nextSource_moves {valid valid' ready : Bool} (log : Channel.Log Nat) {due : Option Nat}
    (hvalid : valid' = if issuesWrite s.regs c && ready then true else valid)
    (hissues : issuesWrite s.regs c = true → due = some (idAt g.ids (nextWaitIdx s.regs c))) :
    Channel.Moves log (valid = true) (valid' = true) due (valid && ready)
      (g.nextSource s c ready log) := by
  unfold nextSource
  by_cases hload : (issuesWrite s.regs c && ready) = true
  · rw [if_pos hload] at hvalid ⊢
    obtain ⟨hissue, hready⟩ := (Bool.and_eq_true _ _).mp hload
    refine ⟨fun haccept => ((Bool.and_eq_true _ _).mp haccept).1, fun _ => hvalid,
      fun hshown hrefused => ?_, fun _ => .inr (hissues hissue)⟩
    rw [hshown, hready] at hrefused
    cases hrefused
  · rw [if_neg hload] at hvalid ⊢
    rw [hvalid]
    exact .hold fun haccept => ((Bool.and_eq_true _ _).mp haccept).1

theorem addr_moves (hacts : s.Acts c) {due : Option Nat}
    (hissues : issuesWrite s.regs c = true → due = some (idAt g.ids (nextWaitIdx s.regs c))) :
    Channel.Moves g.addr (s.regs.awPacket.awValid = true) ((s.step c).regs.awPacket.awValid = true)
      due (acceptsWriteAddr s c) (g.nextSource s c c.awReady g.addr) := by
  refine nextSource_moves g.addr ?_ hissues
  rw [Machine.step_regs_of_acts hacts, Machine.settle, comb_awPacket]
  split <;> rfl

theorem line_moves (hacts : s.Acts c) {due : Option Nat}
    (hissues : issuesWrite s.regs c = true → due = some (idAt g.ids (nextWaitIdx s.regs c))) :
    Channel.Moves g.line (s.regs.wPacket.wValid = true) ((s.step c).regs.wPacket.wValid = true)
      due (acceptsWriteLine s c) (g.nextSource s c c.wReady g.line) := by
  refine nextSource_moves g.line ?_ hissues
  rw [Machine.step_regs_of_acts hacts, Machine.settle, comb_wPacket]
  split <;> rfl

@[simp]
theorem allocate_addr (g : WriteLog cfg) : (g.allocate s c).addr = g.addr := by
  unfold allocate
  split <;> rfl

@[simp]
theorem allocate_line (g : WriteLog cfg) : (g.allocate s c).line = g.line := by
  unfold allocate
  split <;> rfl

theorem allocations_le (g : WriteLog cfg) : g.allocations ≤ (g.allocate s c).allocations := by
  unfold allocate
  split
  · exact Nat.le_succ _
  · exact le_rfl

theorem step_taken (g : WriteLog cfg) (s : Machine cfg) (c : Cycle cfg) :
    ∃ addrSource lineSource,
      (g.step s c).addr.taken = (g.addr.step (acceptsWriteAddr s c) addrSource).taken ∧
        (g.step s c).line.taken = (g.line.step (acceptsWriteLine s c) lineSource).taken := by
  unfold step
  by_cases hreset : c.reset = true
  · rw [if_pos hreset]
    exact ⟨_, _, Channel.Log.taken_restart _, Channel.Log.taken_restart _⟩
  · rw [if_neg hreset]
    by_cases hacts : s.Acts c
    · rw [if_pos hacts, accept, allocate_addr, allocate_line]
      exact ⟨_, _, rfl, rfl⟩
    · rw [if_neg hacts]
      exact ⟨_, _, rfl, rfl⟩

section Step

variable (hsize : cfg.numMshrs = cfg.ways) (hle : cfg.numMshrs ≤ 8) (hm : 1 < cfg.numMshrs)
include hsize hle hm

/-- The write that is due stays due unless a response retires it, with both halves accepted. -/
theorem Ok.stays_due (h : g.Ok s.regs) (honce : TakesOnce s g c) (hacks : AcksAccepted s g c)
    (hacts : s.Acts c) {id : Nat} (hid : g.due s.regs = some id) :
    (g.allocate s c).due (s.step c).regs = some id ∨ (id ∈ g.addr.taken ∧ id ∈ g.line.taken) := by
  by_cases hread : c.rPacket.rValid = true
  · exact .inr (honce.read hread id hid)
  · by_cases hwrite : c.bPacket.bValid = true
    · exact .inr (hacks hwrite id hid)
    · obtain ⟨hvalid, hreq, rfl⟩ := due_eq_some hid
      have hwait : nextWaitIdx s.regs c = s.regs.waitIdx := by simp [nextWaitIdx, hread, hwrite]
      have hissues : issuesWrite s.regs c = true := by
        unfold issuesWrite
        rw [hwait, Bool.and_eq_true]
        exact ⟨hvalid, hreq⟩
      rw [due_of_issues hsize hle hm h.queue g hacts hissues, hwait]
      exact .inl rfl

theorem Ok.step_of_acts (h : g.Ok s.regs) (honce : TakesOnce s g c) (hacks : AcksAccepted s g c)
    (hacts : s.Acts c) : (g.step s c).Ok (s.step c).regs := by
  have hstep : g.step s c = (g.allocate s c).accept s c (g.nextSource s c c.awReady g.addr)
      (g.nextSource s c c.wReady g.line) := by
    rw [step, if_neg (by simp [hacts.1]), if_pos hacts]
  have hlive := h.step_live hacts
  have hfresh : ∀ id, (g.allocate s c).due (s.step c).regs = some id → id ∉ g.addr.before :=
    fun id hid => (due_live hlive hid).2
  have hissues : issuesWrite s.regs c = true →
      (g.allocate s c).due (s.step c).regs = some (idAt g.ids (nextWaitIdx s.regs c)) :=
    due_of_issues hsize hle hm h.queue g hacts
  obtain ⟨queue, hq⟩ := h.queue
  rw [hstep]
  refine ⟨⟨_, step_queue hsize hle hq honce.responds hacts⟩, ?_, ?_, ?_⟩
  · simp only [accept, allocate_addr, allocate_line]
    exact h.halves.step (addr_moves hacts hissues) (line_moves hacts hissues) honce.addr honce.line
      (fun _ hid => h.stays_due hsize hle hm honce hacks hacts hid) hfresh
  · simp only [accept, allocate_addr]
    exact fun id hid => (h.step_taken _ id hid).trans_le g.allocations_le
  · rw [accept, allocate_addr]
    exact hlive

omit hsize hle hm in
/-- A cycle in which the registers keep their values, up to what a reset does to them. -/
theorem Ok.hold (h : g.Ok s.regs) (honce : TakesOnce s g c) :
    Channel.Sound (g.addr.step (acceptsWriteAddr s c) g.addr.source)
      (g.line.step (acceptsWriteLine s c) g.line.source) (s.regs.awPacket.awValid = true)
      (s.regs.wPacket.wValid = true) (g.due s.regs) :=
  h.halves.step (.hold fun haccept => ((Bool.and_eq_true _ _).mp haccept).1)
    (.hold fun haccept => ((Bool.and_eq_true _ _).mp haccept).1) honce.addr honce.line
    (fun _ hid => .inl hid) h.halves.fresh

omit hsize hle hm in
theorem Ok.step_of_frozen (h : g.Ok s.regs) (honce : TakesOnce s g c) (hreset : c.reset = false)
    (hfrozen : ¬s.Acts c) : (g.step s c).Ok (s.step c).regs := by
  have hstep : g.step s c = g.accept s c g.addr.source g.line.source := by
    rw [step, if_neg (by simp [hreset]), if_neg hfrozen]
  rw [hstep, Machine.step_regs_of_frozen hreset hfrozen]
  exact ⟨h.queue, h.hold honce, h.step_taken _, h.live⟩

omit hsize hle hm in
theorem Ok.step_of_reset (h : g.Ok s.regs) (honce : TakesOnce s g c) (hreset : c.reset = true) :
    (g.step s c).Ok (s.step c).regs := by
  have hboth : (g.addr.step (acceptsWriteAddr s c) g.addr.source).since = [] ↔
      (g.line.step (acceptsWriteLine s c) g.line.source).since = [] := by
    rw [Channel.Log.step_since_eq_nil, Channel.Log.step_since_eq_nil]
    exact honce.reset hreset
  rw [step, if_pos hreset, Machine.step_regs_of_reset hreset]
  refine ⟨⟨[], queue_reset cfg⟩, ?_, ?_, fun i hvalid => by cases hvalid⟩
  · rw [due_reset]
    exact (h.hold honce).restart hboth (by simp [Regs.reset, AddressWritePacket.zero])
      (by simp [Regs.reset, WriteDataPacket.zero])
  · rw [Channel.Log.taken_restart]
    exact h.step_taken _

end Step

end WriteLog

/-! ### Runs -/

/-- No half is taken twice, the halves of an MSHR have been taken when a response retires it, and the
channels take them in the same order. -/
structure PairsUp (s : Machine cfg) (g : WriteLog cfg) (c : Cycle cfg) : Prop where
  addrs : g.addr.taken.Nodup
  lines : g.line.taken.Nodup
  retires : ∀ id, s.Acts c → c.rPacket.rValid = true ∨ c.bPacket.bValid = true →
    g.due s.regs = some id → g.addr.taken.count id = 1 ∧ g.line.taken.count id = 1
  pairs : ∀ (n a b : Nat), g.addr.taken[n]? = some a → g.line.taken[n]? = some b → a = b

theorem WriteLog.Ok.pairsUp {g : WriteLog cfg} (h : g.Ok s.regs) (honce : TakesOnce s g c)
    (hacks : AcksAccepted s g c) : PairsUp s g c where
  addrs := h.halves.nodup_taken
  lines := h.halves.swap.nodup_taken
  retires id _ hresp hid := by
    have hboth : BothAccepted s.regs g := by
      rcases hresp with hread | hwrite
      · exact honce.read hread
      · exact hacks hwrite
    obtain ⟨haddr, hline⟩ := hboth id hid
    exact ⟨List.count_eq_one_of_mem h.halves.nodup_taken haddr,
      List.count_eq_one_of_mem h.halves.swap.nodup_taken hline⟩
  pairs _ _ _ := h.halves.pairs

theorem WriteLog.run_ok (s : Machine .shipped) (hreset : s.AfterReset)
    (input : Nat → Cycle .shipped) (k : Nat)
    (hacks : ∀ j < k, AcksAccepted (s.run input j) (WriteLog.run s input j) (input j))
    (honce : ∀ j < k, TakesOnce (s.run input j) (WriteLog.run s input j) (input j)) :
    (WriteLog.run s input k).Ok (s.run input k).regs := by
  refine Clocked.history_invariant WriteLog.step (.start _) (fun s g => g.Ok s.regs)
    (fun s g c => TakesOnce s g c ∧ AcksAccepted s g c) ?_ (fun s g c h hlegal => ?_)
    fun j hj => ⟨honce j hj, hacks j hj⟩
  · rw [hreset]
    exact WriteLog.ok_start _
  · by_cases hrst : c.reset = true
    · exact h.step_of_reset hlegal.1 hrst
    · by_cases hacts : s.Acts c
      · exact h.step_of_acts rfl (by decide) (by decide) hlegal.1 hlegal.2 hacts
      · exact h.step_of_frozen hlegal.1 (by simpa using hrst) hacts

/-- **The halves of the writes pair up, as long as a channel is accepted from once.** -/
theorem halves_pair_up (s : Machine .shipped) (hreset : s.AfterReset)
    (input : Nat → Cycle .shipped) (k : Nat)
    (hacks : ∀ j ≤ k, AcksAccepted (s.run input j) (WriteLog.run s input j) (input j))
    (honce : ∀ j ≤ k, TakesOnce (s.run input j) (WriteLog.run s input j) (input j)) :
    PairsUp (s.run input k) (WriteLog.run s input k) (input k) := by
  have hok := WriteLog.run_ok s hreset input k (fun j hj => hacks j hj.le) fun j hj => honce j hj.le
  exact hok.pairsUp (honce k le_rfl) (hacks k le_rfl)

/-- A WRITE miss whose halves are accepted in cycle 2 and acknowledged in cycle 3. -/
def oneWrite : Nat → Cycle .shipped
  | 0 => { Cycle.idle .shipped with toDrive := .request .write 0x40 0 }
  | 1 => { Cycle.idle .shipped with awReady := true, wReady := true }
  | 2 => { Cycle.idle .shipped with awReady := true, wReady := true }
  | 3 => { Cycle.idle .shipped with bPacket := ⟨false, true⟩ }
  | _ + 4 => .idle _

theorem oneWrite_pairsUp :
    PairsUp ((Machine.fresh .shipped).run oneWrite 3)
      (WriteLog.run (Machine.fresh .shipped) oneWrite 3) (oneWrite 3) :=
  halves_pair_up _ (Machine.fresh_afterReset _) oneWrite 3 (by decide +kernel) (by decide +kernel)

/-- Until the next reset a second handshake of a channel takes the half of the same write again. -/
theorem second_handshake_repeats (s : Machine .shipped) (hreset : s.AfterReset)
    (input : Nat → Cycle .shipped) (k : Nat)
    (hacks : ∀ j < k, AcksAccepted (s.run input j) (WriteLog.run s input j) (input j))
    (honce : ∀ j < k, TakesOnce (s.run input j) (WriteLog.run s input j) (input j))
    (hsecond : (acceptsWriteAddr (s.run input k) (input k) = true ∧
        (WriteLog.run s input k).addr.since ≠ []) ∨
      (acceptsWriteLine (s.run input k) (input k) = true ∧
        (WriteLog.run s input k).line.since ≠ [])) :
    ¬PairsUp (s.run input (k + 1)) (WriteLog.run s input (k + 1)) (input (k + 1)) := by
  intro hpairs
  have hhalves := (WriteLog.run_ok s hreset input k hacks honce).halves
  obtain ⟨addrSource, lineSource, haddr, hline⟩ :=
    WriteLog.step_taken (WriteLog.run s input k) (s.run input k) (input k)
  rcases hsecond with ⟨haccept, hsince⟩ | ⟨haccept, hsince⟩
  · rw [haccept] at haddr
    exact hhalves.not_nodup_step ((Bool.and_eq_true _ _).mp haccept).1 hsince addrSource
      (haddr ▸ hpairs.addrs)
  · rw [haccept] at hline
    exact hhalves.swap.not_nodup_step ((Bool.and_eq_true _ _).mp haccept).1 hsince lineSource
      (hline ▸ hpairs.lines)

/-- DRAM takes the line of a write in cycle 2, and is ready for its address in cycle 3 as well. -/
def addrTwice : Nat → Drive .shipped
  | 0 => .request .write 0x40 0
  | 1 => { Drive.idle .shipped with awReady := true, wReady := true }
  | 2 => { Drive.idle .shipped with awReady := true, wReady := true }
  | 3 => { Drive.idle .shipped with awReady := true }
  | 4 => { Drive.idle .shipped with bPacket := ⟨false, true⟩ }
  | _ + 5 => .idle _

theorem halves_not_paired :
    ¬∀ (s : System .shipped) (input : Nat → Drive .shipped) (k : Nat), s.AfterReset →
      (∀ j ≤ k, AcksAccepted (s.toMachine.run (s.cycles input) j)
        (WriteLog.run s.toMachine (s.cycles input) j) (s.cycles input j)) →
      PairsUp (s.toMachine.run (s.cycles input) k)
        (WriteLog.run s.toMachine (s.cycles input) k) (s.cycles input k) := by
  intro hclaim
  have hpairs := hclaim (.fresh _) addrTwice 4 ⟨rfl, rfl⟩ (by decide +kernel)
  have honce := hpairs.retires 0 (by decide +kernel) (.inr rfl) (by decide +kernel)
  exact absurd honce.1 (by decide +kernel)

end MultiCoreL2Cache
