import MultiCoreL2Cache.Proof.Progress

/-!
# Misses and handshakes

A DRAM that is ready on every channel again and again, and answers what it has taken there, answers
whenever something is outstanding: the cache loads the channels with the oldest miss at the next ready
cycle, and leaves them loaded.
-/

namespace MultiCoreL2Cache

open Ring

variable {cfg : Config}

namespace MissLog

variable {m : MissLog cfg} {d : Drive cfg} {x : Miss cfg}

/-! ### As long as nothing is answered -/

theorem retiredAfter_of_not_serves (h : ¬d.Serves) : m.retiredAfter d = m.retired := by
  refine if_neg fun hanswered => h (.inr ?_)
  unfold answered at hanswered
  simp only [Bool.and_eq_true, Bool.or_eq_true] at hanswered
  exact hanswered.1

theorem step_of_not_serves (h : ¬d.Serves) : m.step d = m.next d :=
  if_neg fun hreset => h (.inl hreset)

theorem run_succ_of_not_serves {input : Nat → Drive cfg} {k : Nat} (h : ¬(input k).Serves) :
    m.run input (k + 1) = (m.run input k).next (input k) :=
  step_of_not_serves h

/-- The oldest miss. -/
def Oldest (m : MissLog cfg) (x : Miss cfg) : Prop := m.accepted[m.retired]? = some x

theorem Oldest.head (hx : m.Oldest x) (h : ¬d.Serves) : m.head d = some x := by
  rw [MissLog.head, retiredAfter_of_not_serves h]
  exact hx

theorem Oldest.step (hx : m.Oldest x) (h : ¬d.Serves) : (m.step d).Oldest x := by
  have hretired : (m.next d).retired = m.retired := retiredAfter_of_not_serves h
  have hlt : m.retired < m.accepted.length := (List.getElem?_eq_some_iff.mp hx).1
  rw [step_of_not_serves h, Oldest, hretired, accepted_next hlt]
  exact hx

section Unanswered

variable {input : Nat → Drive cfg} {b : Nat} (hx : (m.run input b).Oldest x)
  (hnone : ∀ j, b ≤ j → ¬(input j).Serves)
include hx hnone

theorem run_oldest {j : Nat} (hj : b ≤ j) : (m.run input j).Oldest x :=
  Clocked.persists (P := fun j => (m.run input j).Oldest x) hj hx fun l hl _ hold =>
    hold.step (hnone l hl)

theorem eventually_ar (hread : x.writeReq = false)
    (hready : ∀ k, ∃ j, k ≤ j ∧ (input j).arReady = true) :
    ∃ k, b ≤ k ∧ ∀ j, k ≤ j → (m.run input j).ar = some x.addr := by
  refine Clocked.eventually_loaded (fun j hj => ?_) (hready b)
  have hhead := (run_oldest hx hnone hj).head (hnone j hj)
  have hrequest : (m.run input j).readHead (input j) = some x.addr := by
    simp [readHead, hhead, Option.filter, hread]
  rw [run_succ_of_not_serves (hnone j hj)]
  simp only [next, hrequest, Option.some_or]

theorem eventually_aw (hwrite : x.writeReq = true)
    (hready : ∀ k, ∃ j, k ≤ j ∧ (input j).awReady = true) :
    ∃ k, b ≤ k ∧ ∀ j, k ≤ j → (m.run input j).aw = some x.addr := by
  refine Clocked.eventually_loaded (fun j hj => ?_) (hready b)
  have hhead := (run_oldest hx hnone hj).head (hnone j hj)
  have hrequest : (m.run input j).writeHead (input j) = some x.addr := by
    simp [writeHead, hhead, Option.filter, hwrite]
  rw [run_succ_of_not_serves (hnone j hj)]
  simp only [next, hrequest, Option.some_or]

theorem eventually_w (hwrite : x.writeReq = true)
    (hready : ∀ k, ∃ j, k ≤ j ∧ (input j).wReady = true) :
    ∃ k, b ≤ k ∧ ∀ j, k ≤ j → (m.run input j).w = true := by
  refine Clocked.eventually_loaded (fun j hj => ?_) (hready b)
  have hhead := (run_oldest hx hnone hj).head (hnone j hj)
  have hrequest : (m.run input j).writeHead (input j) = some x.addr := by
    simp [writeHead, hhead, Option.filter, hwrite]
  rw [run_succ_of_not_serves (hnone j hj)]
  simp only [next, hrequest, Option.isSome_some, Bool.and_true]
  cases (input j).wReady <;> simp

end Unanswered

end MissLog

/-! ### The cache -/

/-- DRAM accepts on a channel what the oldest MSHR asks for. -/
structure Takes (s : System cfg) (writeReq : Bool) (payload : Prop) (accepts : Bool) : Prop where
  valid : s.regs.head.valid = true
  kind : s.regs.head.writeReq = writeReq
  payload : payload
  accepts : accepts = true

def TakesRead (s : System cfg) (d : Drive cfg) : Prop :=
  Takes s false (s.regs.arPacket.arAddr = s.regs.head.addr) (acceptsRead s.toMachine (s.openCycle d))

def TakesWriteAddr (s : System cfg) (d : Drive cfg) : Prop :=
  Takes s true (s.regs.awPacket.awAddr = s.regs.head.addr)
    (acceptsWriteAddr s.toMachine (s.openCycle d))

def TakesWriteLine (s : System cfg) (d : Drive cfg) : Prop :=
  Takes s true (s.regs.wPacket.wData = s.regs.head.data)
    (acceptsWriteLine s.toMachine (s.openCycle d))

/-- DRAM is ready on every channel again and again. It answers nothing but what is outstanding, and
what it has accepted for the oldest miss, a write once it has both the address and the line. -/
structure HandshakeDram (s : System cfg) (input : Nat → Drive cfg) : Prop where
  responds : ∀ k, RespondsToHead (s.run input k).toMachine (s.cycles input k)
  arReady : ∀ k, ∃ j, k ≤ j ∧ (input j).arReady = true
  awReady : ∀ k, ∃ j, k ≤ j ∧ (input j).awReady = true
  wReady : ∀ k, ∃ j, k ≤ j ∧ (input j).wReady = true
  reads : ∀ k, TakesRead (s.run input k) (input k) → ∃ j, k ≤ j ∧ (input j).Serves
  writes : ∀ k l, TakesWriteAddr (s.run input k) (input k) →
    TakesWriteLine (s.run input l) (input l) → ∃ j, min k l ≤ j ∧ (input j).Serves

section Cache

variable {s : System cfg} {m : MissLog cfg} {d : Drive cfg} {x : Miss cfg}

theorem Logged.head (hle : cfg.numMshrs ≤ 8) (h : Logged s m) (hx : m.Oldest x) :
    s.regs.head = x.entry true := by
  rw [Regs.head, h.regs]
  exact (MissLog.mshrAt_place _ hle m.retired).trans (MissLog.slot_place (Nat.le_refl _) hx)

theorem Logged.takes (hle : cfg.numMshrs ≤ 8) (h : Logged s m) (hx : m.Oldest x)
    {writeReq accepts : Bool} {payload : Prop} (hkind : x.writeReq = writeReq) (hpayload : payload)
    (haccepts : accepts = true) : Takes s writeReq payload accepts := by
  have hhead := h.head hle hx
  refine ⟨?_, ?_, hpayload, haccepts⟩
  · rw [hhead]
    rfl
  · rw [hhead]
    exact hkind

theorem Logged.takesRead (hle : cfg.numMshrs ≤ 8) (h : Logged s m) (hx : m.Oldest x)
    (hread : x.writeReq = false) (hshown : m.ar = some x.addr) (hready : d.arReady = true) :
    TakesRead s d := by
  have hpacket : s.regs.arPacket = { arAddr := x.addr, arValid := true, arProt := 0 } := by
    rw [h.regs, MissLog.regs, hshown]
  have haccepts : acceptsRead s.toMachine (s.openCycle d) = true := by
    change (s.regs.arPacket.arValid && d.arReady) = true
    rw [hpacket, hready]
    rfl
  refine h.takes hle hx hread ?_ haccepts
  rw [hpacket, h.head hle hx]
  rfl

theorem Logged.takesWriteAddr (hle : cfg.numMshrs ≤ 8) (h : Logged s m) (hx : m.Oldest x)
    (hwrite : x.writeReq = true) (hshown : m.aw = some x.addr) (hready : d.awReady = true) :
    TakesWriteAddr s d := by
  have hpacket : s.regs.awPacket = { awAddr := x.addr, awValid := true, awProt := 0 } := by
    rw [h.regs, MissLog.regs, hshown]
  have haccepts : acceptsWriteAddr s.toMachine (s.openCycle d) = true := by
    change (s.regs.awPacket.awValid && d.awReady) = true
    rw [hpacket, hready]
    rfl
  refine h.takes hle hx hwrite ?_ haccepts
  rw [hpacket, h.head hle hx]
  rfl

theorem Logged.takesWriteLine (hle : cfg.numMshrs ≤ 8) (h : Logged s m) (hx : m.Oldest x)
    (hwrite : x.writeReq = true) (hshown : m.w = true) (hready : d.wReady = true) :
    TakesWriteLine s d := by
  have hpacket : s.regs.wPacket =
      { wData := 0#512, wValid := true, wStrb := BitVec.allOnes 64 } := by
    rw [h.regs, MissLog.regs, hshown, if_pos rfl]
  have haccepts : acceptsWriteLine s.toMachine (s.openCycle d) = true := by
    change (s.regs.wPacket.wValid && d.wReady) = true
    rw [hpacket, hready]
    rfl
  refine h.takes hle hx hwrite ?_ haccepts
  rw [hpacket, h.head hle hx]
  rfl

variable {input : Nat → Drive cfg}

theorem fairDram_of_handshakes (hs : Unfrozen s) (hdram : HandshakeDram s input) :
    FairDram s input := by
  refine ⟨hdram.responds, fun b hvalid => ?_⟩
  by_contra hnever
  have hnone : ∀ j, b ≤ j → ¬(input j).Serves := fun j hj hserves => hnever ⟨j, hj, hserves⟩
  have hlogged : ∀ k, Logged (s.run input k) ((MissLog.start s.nets.mshrExists).run input k) :=
    fun k => logged_run hs.size hs.le hs.one_lt hs.afterReset hs.waiting fun j _ => hdram.responds j
  have hout : ((MissLog.start s.nets.mshrExists).run input b).Outstanding := by
    rw [(hlogged b).regs] at hvalid
    exact (MissLog.head_valid_iff hs.le).mp hvalid
  obtain ⟨x, hx⟩ : ∃ x, ((MissLog.start s.nets.mshrExists).run input b).Oldest x :=
    ⟨_, List.getElem?_eq_getElem hout⟩
  have hstays : ∀ j, b ≤ j → ((MissLog.start s.nets.mshrExists).run input j).Oldest x :=
    fun j hj => MissLog.run_oldest hx hnone hj
  cases hkind : x.writeReq with
  | false =>
      obtain ⟨k, hk, hshown⟩ := MissLog.eventually_ar hx hnone hkind hdram.arReady
      obtain ⟨j, hj, hready⟩ := hdram.arReady k
      have htakes := (hlogged j).takesRead hs.le (hstays j (hk.trans hj)) hkind (hshown j hj) hready
      obtain ⟨l, hl, hserves⟩ := hdram.reads j htakes
      exact hnone l (hk.trans (hj.trans hl)) hserves
  | true =>
      obtain ⟨k, hk, haddr⟩ := MissLog.eventually_aw hx hnone hkind hdram.awReady
      obtain ⟨k', hk', hline⟩ := MissLog.eventually_w hx hnone hkind hdram.wReady
      obtain ⟨j, hj, hready⟩ := hdram.awReady k
      obtain ⟨j', hj', hready'⟩ := hdram.wReady k'
      have htakes := (hlogged j).takesWriteAddr hs.le (hstays j (hk.trans hj)) hkind (haddr j hj)
        hready
      have htakes' := (hlogged j').takesWriteLine hs.le (hstays j' (hk'.trans hj')) hkind
        (hline j' hj') hready'
      obtain ⟨l, hl, hserves⟩ := hdram.writes j j' htakes htakes'
      exact hnone l ((le_min (hk.trans hj) (hk'.trans hj')).trans hl) hserves

/-- **What DRAM sees on its channels is enough to end every miss.** -/
theorem handshakes_end_misses (s : System cfg) (hs : Unfrozen s) (input : Nat → Drive cfg)
    (hdram : HandshakeDram s input) (b : Nat) (i : Fin cfg.numMshrs)
    (hvalid : ((s.run input b).regs.mshrs i).valid = true) : ∃ k, EndsAt s input i b k :=
  exists_endsAt hs (fairDram_of_handshakes hs hdram) hvalid

end Cache

theorem MissLog.not_outstanding_step {m : MissLog cfg} {d : Drive cfg} (h : ¬m.Outstanding)
    (hasks : m.asks d = false) : ¬(m.step d).Outstanding := by
  have hnot : ¬m.accepts d = true := by
    unfold MissLog.accepts
    simp [hasks]
  cases hreset : d.reset with
  | true =>
      rw [step_of_reset hreset]
      exact Nat.lt_irrefl 0
  | false =>
      have hretired : m.retired ≤ (m.next d).retired := m.retired_le_retiredAfter d
      rw [step_of_not_reset hreset]
      unfold MissLog.Outstanding at h ⊢
      rw [accepted_of_not_accepts hnot]
      omega

/-- A READ miss that DRAM takes when its address is shown, and answers one cycle later. -/
def readTaken : Nat → Drive .shipped
  | 0 => .request .read 0x40 1
  | 3 => .response _ 7#512
  | _ => { Drive.idle _ with arReady := true, awReady := true, wReady := true }

theorem readTaken_responds (k : Nat) :
    RespondsToHead ((System.fresh .shipped).run readTaken k).toMachine
      ((System.fresh .shipped).cycles readTaken k) := by
  rcases k with _ | _ | _ | _ | k
  · rintro (hr | hb)
    · exact absurd hr (by decide)
    · exact absurd hb (by decide)
  · rintro (hr | hb)
    · exact absurd hr (by decide)
    · exact absurd hb (by decide)
  · rintro (hr | hb)
    · exact absurd hr (by decide)
    · exact absurd hb (by decide)
  · intro _
    decide +kernel
  · rintro (hr | hb)
    · exact absurd hr Bool.false_ne_true
    · exact absurd hb Bool.false_ne_true

theorem readTaken_done (k : Nat) :
    ((System.fresh .shipped).run readTaken (k + 4)).regs.head.valid = false := by
  have hdone : ¬((MissLog.start false).run readTaken (k + 4)).Outstanding := by
    induction k with
    | zero => decide +kernel
    | succ k ih =>
        refine MissLog.not_outstanding_step ih ?_
        simp [MissLog.asks, readTaken, Drive.idle, Inputs.idle, L2EntryPacket.zero]
  have hlogged : Logged ((System.fresh .shipped).run readTaken (k + 4))
      ((MissLog.start false).run readTaken (k + 4)) :=
    logged_run rfl (by decide) (by decide) ⟨rfl, rfl⟩ rfl fun j _ => readTaken_responds j
  rw [Regs.head, hlogged.regs]
  by_contra hvalid
  exact hdone ((MissLog.head_valid_iff (by decide)).mp (by simpa using hvalid))

theorem readTaken_handshakes : HandshakeDram (.fresh .shipped) readTaken where
  responds := readTaken_responds
  arReady k := ⟨k + 4, Nat.le_add_right k 4, rfl⟩
  awReady k := ⟨k + 4, Nat.le_add_right k 4, rfl⟩
  wReady k := ⟨k + 4, Nat.le_add_right k 4, rfl⟩
  reads k htakes := by
    rcases Nat.lt_or_ge k 4 with hlt | hge
    · exact ⟨3, Nat.lt_succ_iff.mp hlt, .inr (.inl rfl)⟩
    · obtain ⟨n, rfl⟩ := Nat.exists_eq_add_of_le' hge
      exact absurd htakes.valid (by rw [readTaken_done]; exact Bool.false_ne_true)
  writes k l htakes _ := by
    rcases Nat.lt_or_ge k 4 with hlt | hge
    · exact ⟨3, (min_le_left k l).trans (Nat.lt_succ_iff.mp hlt), .inr (.inl rfl)⟩
    · obtain ⟨n, rfl⟩ := Nat.exists_eq_add_of_le' hge
      exact absurd htakes.valid (by rw [readTaken_done]; exact Bool.false_ne_true)

theorem readTaken_ends : ∃ k, EndsAt (.fresh .shipped) readTaken (0 : Fin 8) 1 k :=
  handshakes_end_misses _ fresh_unfrozen readTaken readTaken_handshakes 1 (0 : Fin 8)
    (by decide +kernel)

end MultiCoreL2Cache
