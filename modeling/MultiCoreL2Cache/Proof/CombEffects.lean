import MultiCoreL2Cache.Model.Clock

/-!
# What one evaluation does to each net

The block is a sequence of sections, each of which rewrites a few nets. Here every net that later
arguments need is given as a function of the registers, the inputs and its own old value, so that no
later proof unfolds the block. The predicates name the branches of the source.
-/

namespace MultiCoreL2Cache

open Packed

variable {cfg : Config} (r : Regs cfg) (c : Cycle cfg) (n : Nets cfg)

/-- The way that a refill gives up holds a line that has to be snooped first. -/
def victimActive : Bool :=
  c.rPacket.rValid && (victimModified c (lruWay r) || victimDirty c (lruWay r))

def victimAnswered : Bool :=
  if victimModified c (lruWay r) then
    snoopAnswers c (targetCore (c.readMeta (lruWay r))) (c.readMeta (lruWay r)).addr
  else allBack c

/-- The cores that the refill snoops: the owner, or all of them. -/
def victimTargets (core : cfg.Core) : Bool :=
  victimActive r c &&
    (!victimModified c (lruWay r) || targetCore (c.readMeta (lruWay r)) == some core)

def readOrWrite : Bool :=
  !stalled r c && decide (c.l2EntryPacket.reqType = .read ∨ c.l2EntryPacket.reqType = .write)

def hitActive : Bool := readOrWrite r c && hitAny c && modifiedElsewhere c (hitWay c)

def hitAnswered : Bool :=
  snoopAnswers c (targetCore (c.readMeta (hitWay c))) c.l2EntryPacket.targetAddr

def hitTargets (core : cfg.Core) : Bool :=
  hitActive r c && targetCore (c.readMeta (hitWay c)) == some core

/-- The address and the state that the snoop of a hit asks for. -/
def hitSnoop (old : SnoopReqPacket cfg) : SnoopReqPacket cfg :=
  if c.l2EntryPacket.reqType = .read then
    { old with
      valid := true, addr := c.l2EntryPacket.reqType.toBits.setWidth 32, ownerState := .shared }
  else { old with valid := true, addr := c.l2EntryPacket.targetAddr, ownerState := .invalid }

def misses : Bool := readOrWrite r c && !hitAny c

def looksUp : Bool := readOrWrite r c && hitAny c

def writesMeta : Bool :=
  !stalled r c &&
    match c.l2EntryPacket.reqType with
    | .read => false
    | .write => hitAny c && !modifiedElsewhere c (hitWay c)
    | .upgrade => true
    | .evict => true
    | .unnamed _ => false

/-- A miss gets an MSHR. `exists'` is the net `mshr_exists` before the evaluation. -/
def missAllocates (exists' : Bool) : Bool :=
  misses r c && !(exists' || mshrMatch r c) && !(mshrAt r.mshrs r.freeIdx).valid

def victimAllocates : Bool := victimActive r c && victimAnswered r c

def victimEntry : Mshr cfg :=
  let p := c.readMeta (lruWay r)
  if victimModified c (lruWay r) then
    match targetCore p with
    | some core =>
        { valid := true, addr := (c.snoopResp core).addr, data := (c.snoopResp core).data
          coreId := (c.snoopResp core).coreId, writeReq := true }
    | none => .zero cfg
  else
    { valid := true, addr := p.addr, data := c.readData (lruWay r), coreId := 0
      writeReq := true }

/-- What a miss makes of the entry it finds in its MSHR. The data stays. -/
def missEntry (old : Mshr cfg) : Mshr cfg :=
  { old with
    valid := true
    addr := c.l2EntryPacket.targetAddr
    coreId := c.l2EntryPacket.coreId
    writeReq := c.l2EntryPacket.reqType == .write }

theorem rValid_of_victimAllocates {r : Regs cfg} {c : Cycle cfg}
    (h : victimAllocates r c = true) : c.rPacket.rValid = true := by
  unfold victimAllocates victimActive at h
  simp only [Bool.and_eq_true] at h
  exact h.1.1

/-! ### Snoops leave everything but `next_snoop_req` -/

section Snoop

variable (target : Option cfg.Core) (addr : Addr) (state : OwnerState)

def snoopReqOf (old : SnoopReqPacket cfg) : SnoopReqPacket cfg :=
  { old with valid := true, addr := addr, ownerState := state }

theorem raiseSnoopAt_eq :
    n.raiseSnoopAt target addr state = { n with next := { n.next with
      snoopReq := fun core =>
        if target = some core then snoopReqOf addr state (n.next.snoopReq core)
        else n.next.snoopReq core } } := by
  cases target with
  | none => simp [Nets.raiseSnoopAt]
  | some t =>
      have hupdate : Function.update n.next.snoopReq t (snoopReqOf addr state (n.next.snoopReq t)) =
          fun core => if some t = some core then snoopReqOf addr state (n.next.snoopReq core)
            else n.next.snoopReq core := by
        funext core
        by_cases heq : core = t
        · subst heq
          simp
        · simp [heq, Ne.symm heq]
      simp only [Nets.raiseSnoopAt, Nets.raiseSnoop, ← hupdate]
      rfl

private theorem foldl_raiseSnoop (l : List cfg.Core) :
    l.foldl (fun n core => n.raiseSnoop core addr state) n = { n with next := { n.next with
      snoopReq := fun core =>
        if core ∈ l then snoopReqOf addr state (n.next.snoopReq core)
        else n.next.snoopReq core } } := by
  induction l generalizing n with
  | nil => simp
  | cons t l ih =>
      rw [List.foldl_cons, ih]
      have hfun : (fun core => if core ∈ l
            then snoopReqOf addr state ((n.raiseSnoop t addr state).next.snoopReq core)
            else (n.raiseSnoop t addr state).next.snoopReq core) =
          fun core => if core ∈ t :: l then snoopReqOf addr state (n.next.snoopReq core)
            else n.next.snoopReq core := by
        funext core
        by_cases heq : core = t
        · subst heq
          by_cases hmem : core ∈ l <;> simp [Nets.raiseSnoop, snoopReqOf, hmem]
        · by_cases hmem : core ∈ l <;> simp [Nets.raiseSnoop, heq, hmem]
      rw [hfun]
      rfl

theorem raiseSnoopAll_eq :
    n.raiseSnoopAll addr state = { n with next := { n.next with
      snoopReq := fun core => snoopReqOf addr state (n.next.snoopReq core) } } := by
  rw [Nets.raiseSnoopAll, foldl_raiseSnoop]
  simp

end Snoop

/-! ### The refill -/

theorem evictModified_eq (winner : cfg.Way) :
    evictModified r c winner n =
      let p := c.readMeta winner
      let m := { n with waiting := true }.raiseSnoopAt (targetCore p) p.addr .invalid
      match targetCore p with
      | some core =>
          if snoopAnswers c (some core) p.addr then
            writeBack r (c.snoopResp core).addr (c.snoopResp core).data (c.snoopResp core).coreId
              { m with waiting := false }
          else m
      | none => m := rfl

theorem evictVictim_eq (h : c.rPacket.rValid = true) :
    evictVictim r c (lruWay r) n = { n with
      waiting := if victimActive r c then !victimAnswered r c else n.waiting
      next := { n.next with
        snoopReq := fun core =>
          if victimTargets r c core then
            snoopReqOf (c.readMeta (lruWay r)).addr .invalid (n.next.snoopReq core)
          else n.next.snoopReq core
        mshrs :=
          if victimAllocates r c then
            assign n.next.mshrs r.freeIdx.toNat fun _ => victimEntry r c
          else n.next.mshrs
        freeIdx :=
          if victimAllocates r c then advance cfg.numMshrs r.freeIdx else n.next.freeIdx } } := by
  unfold evictVictim
  cases hmod : victimModified c (lruWay r) with
  | true =>
      have hactive : victimActive r c = true := by simp [victimActive, h, hmod]
      have htargets : ∀ core, victimTargets r c core =
          (targetCore (c.readMeta (lruWay r)) == some core) := by
        simp [victimTargets, hactive, hmod]
      simp only [evictModified_eq, raiseSnoopAt_eq, victimAllocates, hactive, victimAnswered,
        victimEntry, hmod, htargets]
      cases htarget : targetCore (c.readMeta (lruWay r)) with
      | none => simp [snoopAnswers]
      | some core =>
          cases hanswer : snoopAnswers c (some core) (c.readMeta (lruWay r)).addr <;>
            simp [writeBack, hanswer]
  | false =>
      have hactive : victimActive r c = victimDirty c (lruWay r) := by simp [victimActive, h, hmod]
      have htargets : ∀ core, victimTargets r c core = victimDirty c (lruWay r) := by
        simp [victimTargets, hactive, hmod]
      simp only [evictDirty, raiseSnoopAll_eq, victimAllocates, hactive, victimAnswered,
        victimEntry, hmod, htargets]
      cases victimDirty c (lruWay r) <;> cases allBack c <;> simp [writeBack]

theorem refill_eq (h : c.rPacket.rValid = true) :
    refill r c n =
      let setIdx := (mshrAt r.mshrs r.waitIdx).addr.l2SetIdx.setWidth cfg.numSetsBits
      { n with
        waiting := if victimActive r c then !victimAnswered r c else n.waiting
        writeEn := Function.update n.writeEn (lruWay r) true
        readMetaEn := Function.update n.readMetaEn (lruWay r) true
        writeAddr := Function.update n.writeAddr (lruWay r) setIdx
        nextWriteData := Function.update n.nextWriteData (lruWay r) c.rPacket.rData
        writeMetaAddr := Function.update n.writeMetaAddr (lruWay r) setIdx
        next := { n.next with
          snoopReq := fun core =>
            if victimTargets r c core then
              snoopReqOf (c.readMeta (lruWay r)).addr .invalid (n.next.snoopReq core)
            else n.next.snoopReq core
          mshrs :=
            if victimAllocates r c then
              assign (retire n.next.mshrs r.waitIdx) r.freeIdx.toNat fun _ => victimEntry r c
            else retire n.next.mshrs r.waitIdx
          freeIdx :=
            if victimAllocates r c then advance cfg.numMshrs r.freeIdx else n.next.freeIdx
          waitIdx := advance cfg.numMshrs r.waitIdx
          lrus := touchLru r (lruWay r) n.next.lrus } } := by
  simp only [refill, h, if_true, evictVictim_eq _ _ _ h]

theorem refill_of_not_rValid (h : c.rPacket.rValid = false) : refill r c n = n := by
  simp [refill, h]

theorem victimEntry_flags {r : Regs cfg} {c : Cycle cfg} (h : victimAllocates r c = true) :
    (victimEntry r c).valid = true ∧ (victimEntry r c).writeReq = true := by
  unfold victimEntry
  unfold victimAllocates victimAnswered at h
  cases hmod : victimModified c (lruWay r) with
  | false => simp
  | true =>
      cases htarget : targetCore (c.readMeta (lruWay r)) with
      | none => simp [hmod, htarget, snoopAnswers] at h
      | some core => simp [htarget]

/-! ### The request -/

def answerData (target : Option cfg.Core) : CacheLine :=
  match target with
  | some core => (c.snoopResp core).data
  | none => 0#512

theorem snoopHit_eq (winner : cfg.Way) (addr : Addr) (state : OwnerState) (p : MetaPacket cfg) :
    snoopHit c winner addr state p n =
      let target := targetCore (c.readMeta winner)
      let answer := snoopAnswers c target c.l2EntryPacket.targetAddr
      let line := answerData c target
      { n with
        waiting := !answer
        nextWriteData := if answer then fun w => if w = 0 then line else 0#512 else n.nextWriteData
        nextWriteMeta := if answer then Function.update n.nextWriteMeta winner p else n.nextWriteMeta
        next := { n.next with
          snoopReq := fun core =>
            if target = some core then snoopReqOf addr state (n.next.snoopReq core)
            else n.next.snoopReq core
          l2ExitPacket :=
            if answer then (n.setLine c.l2EntryPacket.coreId line).next.l2ExitPacket
            else n.next.l2ExitPacket } } := by
  simp only [snoopHit, raiseSnoopAt_eq]
  cases targetCore (c.readMeta winner) with
  | none => simp [snoopAnswers]
  | some core =>
      cases hanswer : (c.snoopResp core).valid &&
          (c.snoopResp core).addr == c.l2EntryPacket.targetAddr <;>
        simp [snoopAnswers, answerData, hanswer, Nets.setAllData, Nets.setMeta, Nets.setLine]

theorem miss_eq :
    miss r c n =
      let allocate := !(n.mshrExists || mshrMatch r c) && !(mshrAt r.mshrs r.freeIdx).valid
      { n with
        mshrExists := n.mshrExists || mshrMatch r c
        next := { n.next with
          l2ExitPacket :=
            if allocate then n.next.l2ExitPacket
            else (n.setStall c.l2EntryPacket.coreId).next.l2ExitPacket
          mshrs :=
            if allocate then assign n.next.mshrs r.freeIdx.toNat (missEntry c) else n.next.mshrs
          freeIdx :=
            if allocate then advance cfg.numMshrs r.freeIdx else n.next.freeIdx } } := by
  unfold miss missEntry
  cases hmatch : mshrMatch r c <;> cases hexists : n.mshrExists <;>
    cases hvalid : (mshrAt r.mshrs r.freeIdx).valid <;> simp [Nets.setStall, hexists]

/-- The nets that a request changes. Two of them are described by lemmas of their own below. -/
theorem request_eq :
    request r c n =
      let setIdx := c.l2EntryPacket.targetAddr.l2SetIdx.setWidth cfg.numSetsBits
      { n with
        waiting := if hitActive r c then !hitAnswered c else n.waiting
        mshrExists := n.mshrExists || (misses r c && mshrMatch r c)
        readEn := if looksUp r c then Function.update n.readEn (hitWay c) true else n.readEn
        readAddr :=
          if looksUp r c then Function.update n.readAddr (hitWay c) setIdx else n.readAddr
        nextWriteData := (request r c n).nextWriteData
        readMetaEn :=
          if looksUp r c then Function.update n.readMetaEn (hitWay c) true else n.readMetaEn
        readMetaAddr :=
          if looksUp r c then Function.update n.readMetaAddr (hitWay c) setIdx else n.readMetaAddr
        writeMetaEn :=
          if writesMeta r c then Function.update n.writeMetaEn (hitWay c) true else n.writeMetaEn
        nextWriteMeta := (request r c n).nextWriteMeta
        next := { n.next with
          l2ExitPacket := (request r c n).next.l2ExitPacket
          snoopReq := fun core =>
            if hitTargets r c core then hitSnoop c (n.next.snoopReq core)
            else n.next.snoopReq core
          mshrs :=
            if missAllocates r c n.mshrExists then
              assign n.next.mshrs r.freeIdx.toNat (missEntry c)
            else n.next.mshrs
          freeIdx :=
            if missAllocates r c n.mshrExists then advance cfg.numMshrs r.freeIdx
            else n.next.freeIdx } } := by
  unfold request hitTargets missAllocates misses looksUp writesMeta hitActive readOrWrite hitAnswered
  cases stalled r c with
  | true => simp
  | false =>
      cases hkind : c.l2EntryPacket.reqType with
      | read =>
          cases hhit : hitAny c <;> cases hmod : modifiedElsewhere c (hitWay c) <;>
            simp [readRequest, snoopHit_eq, miss_eq, lookUp, Nets.setLine, Nets.setMeta, hhit, hmod,
              hkind, hitSnoop, snoopReqOf]
      | write =>
          cases hhit : hitAny c <;> cases hmod : modifiedElsewhere c (hitWay c) <;>
            simp [writeRequest, snoopHit_eq, miss_eq, lookUp, grant, Nets.setLine, Nets.setMeta,
              hhit, hmod, hkind, hitSnoop, snoopReqOf]
      | upgrade => simp [upgradeRequest, grant, Nets.setLine, Nets.setMeta]
      | evict => simp [evictRequest, Nets.setMeta]
      | unnamed code => simp

theorem update_eq_ite {α : Type*} (ports : cfg.Way → α) (w : cfg.Way) (value : α) :
    Function.update ports w value = fun i => if i = w then value else ports i := by
  funext i
  exact Function.update_apply ports w value i

def requestMeta : Option (MetaPacket cfg) :=
  if stalled r c then none
  else match c.l2EntryPacket.reqType with
    | .read =>
        if !hitAny c then none
        else if !modifiedElsewhere c (hitWay c) then some (readMetaUpdate c (hitWay c))
        else if hitAnswered c then some (readSnoopMeta c (hitWay c))
        else none
    | .write =>
        if !hitAny c then none
        else if !modifiedElsewhere c (hitWay c) then some (grantMeta c (hitWay c))
        else if hitAnswered c then some (writeSnoopMeta c (hitWay c))
        else none
    | .upgrade => some (grantMeta c (hitWay c))
    | .evict => some (evictMeta c (hitWay c))
    | .unnamed _ => none

def servedLine : Option CacheLine :=
  if stalled r c then none
  else match c.l2EntryPacket.reqType with
    | .upgrade => some (c.readData (hitWay c))
    | .evict => none
    | .unnamed _ => none
    | _ =>
        if !hitAny c then none
        else if !modifiedElsewhere c (hitWay c) then some (c.readData (hitWay c))
        else if hitAnswered c then some (answerData c (targetCore (c.readMeta (hitWay c))))
        else none

def requestData (w : cfg.Way) : Option CacheLine :=
  if hitActive r c && hitAnswered c then
    some (if w = 0 then answerData c (targetCore (c.readMeta (hitWay c))) else 0#512)
  else if !stalled r c && decide (c.l2EntryPacket.reqType = .evict) && decide (w = hitWay c) then
    some c.l2EntryPacket.cacheLine
  else none

def exitAfter (exists' : Bool) (old : L2ExitPacket) : L2ExitPacket :=
  { old with
    cacheLine := (servedLine r c).getD old.cacheLine
    stall := old.stall || (misses r c && !missAllocates r c exists') }

theorem snoopAnswers_hit :
    snoopAnswers c (targetCore (c.readMeta (hitWay c))) c.l2EntryPacket.targetAddr =
      hitAnswered c := rfl

theorem request_nextWriteMeta :
    (request r c n).nextWriteMeta = fun w =>
      if w = hitWay c then (requestMeta r c).getD (n.nextWriteMeta w) else n.nextWriteMeta w := by
  unfold request requestMeta
  cases stalled r c with
  | true => simp
  | false =>
      cases hkind : c.l2EntryPacket.reqType with
      | read =>
          cases hhit : hitAny c <;> cases hmod : modifiedElsewhere c (hitWay c) <;>
            cases hans : hitAnswered c <;>
            simp [readRequest, snoopHit_eq, miss_eq, lookUp, Nets.setLine, Nets.setMeta, hhit, hmod,
              snoopAnswers_hit, hans, update_eq_ite]
      | write =>
          cases hhit : hitAny c <;> cases hmod : modifiedElsewhere c (hitWay c) <;>
            cases hans : hitAnswered c <;>
            simp [writeRequest, snoopHit_eq, miss_eq, lookUp, grant, Nets.setLine, Nets.setMeta,
              hhit, hmod, snoopAnswers_hit, hans, update_eq_ite]
      | upgrade => simp [upgradeRequest, grant, Nets.setLine, Nets.setMeta, update_eq_ite]
      | evict => simp [evictRequest, Nets.setMeta, update_eq_ite]
      | unnamed code => simp

theorem request_nextWriteData :
    (request r c n).nextWriteData = fun w => (requestData r c w).getD (n.nextWriteData w) := by
  unfold request requestData hitActive readOrWrite
  cases stalled r c with
  | true => simp
  | false =>
      cases hkind : c.l2EntryPacket.reqType with
      | read =>
          cases hhit : hitAny c <;> cases hmod : modifiedElsewhere c (hitWay c) <;>
            cases hans : hitAnswered c <;>
            simp [readRequest, snoopHit_eq, miss_eq, lookUp, Nets.setLine, Nets.setMeta, hhit, hmod,
              snoopAnswers_hit, hans]
      | write =>
          cases hhit : hitAny c <;> cases hmod : modifiedElsewhere c (hitWay c) <;>
            cases hans : hitAnswered c <;>
            simp [writeRequest, snoopHit_eq, miss_eq, lookUp, grant, Nets.setLine, Nets.setMeta,
              hhit, hmod, snoopAnswers_hit, hans]
      | upgrade => simp [upgradeRequest, grant, Nets.setLine, Nets.setMeta]
      | evict =>
          funext w
          by_cases hw : w = hitWay c <;> simp [evictRequest, Nets.setMeta, hw]
      | unnamed code => simp

theorem miss_l2ExitPacket (core : cfg.Core) :
    (miss r c n).next.l2ExitPacket core =
      if core = c.l2EntryPacket.coreId then
        { n.next.l2ExitPacket core with
          stall := (n.next.l2ExitPacket core).stall ||
            (n.mshrExists || mshrMatch r c || (mshrAt r.mshrs r.freeIdx).valid) }
      else n.next.l2ExitPacket core := by
  rw [miss_eq]
  by_cases hcore : core = c.l2EntryPacket.coreId
  · subst hcore
    cases hexists : n.mshrExists <;> cases hmatch : mshrMatch r c <;>
      cases hvalid : (mshrAt r.mshrs r.freeIdx).valid <;> simp [Nets.setStall]
  · cases hexists : n.mshrExists <;> cases hmatch : mshrMatch r c <;>
      cases hvalid : (mshrAt r.mshrs r.freeIdx).valid <;> simp [Nets.setStall, hcore]

theorem request_l2ExitPacket :
    (request r c n).next.l2ExitPacket = fun core =>
      if core = c.l2EntryPacket.coreId then exitAfter r c n.mshrExists (n.next.l2ExitPacket core)
      else n.next.l2ExitPacket core := by
  funext core
  unfold request exitAfter servedLine missAllocates misses readOrWrite
  cases stalled r c with
  | true => simp
  | false =>
      cases hkind : c.l2EntryPacket.reqType with
      | read =>
          cases hhit : hitAny c with
          | false =>
              simp only [readRequest, hhit]
              simp [miss_l2ExitPacket]
          | true =>
              by_cases hcore : core = c.l2EntryPacket.coreId <;>
                cases hmod : modifiedElsewhere c (hitWay c) <;> cases hans : hitAnswered c <;>
                simp [readRequest, snoopHit_eq, lookUp, Nets.setLine, Nets.setMeta, hhit, hmod,
                  snoopAnswers_hit, hans, hcore]
      | write =>
          cases hhit : hitAny c with
          | false =>
              simp only [writeRequest, hhit]
              simp [miss_l2ExitPacket]
          | true =>
              by_cases hcore : core = c.l2EntryPacket.coreId <;>
                cases hmod : modifiedElsewhere c (hitWay c) <;> cases hans : hitAnswered c <;>
                simp [writeRequest, snoopHit_eq, lookUp, grant, Nets.setLine, Nets.setMeta, hhit,
                  hmod, snoopAnswers_hit, hans, hcore]
      | upgrade =>
          by_cases hcore : core = c.l2EntryPacket.coreId <;>
            simp [upgradeRequest, grant, Nets.setLine, Nets.setMeta, hcore]
      | evict => simp [evictRequest, Nets.setMeta]
      | unnamed code => simp

/-! ### The whole block -/

def dramNets : Nets cfg := refill r c (writeResponse r c (defaults r n))

def retiredMshrs : Fin cfg.numMshrs → Mshr cfg :=
  if c.rPacket.rValid || c.bPacket.bValid then retire r.mshrs r.waitIdx else r.mshrs

def dramMshrs : Fin cfg.numMshrs → Mshr cfg :=
  if victimAllocates r c then
    assign (retiredMshrs r c) r.freeIdx.toNat fun _ => victimEntry r c
  else retiredMshrs r c

/-- `next_wait_idx`. A read response and a write response wrap it differently. -/
def nextWaitIdx : BitVec 3 :=
  if c.rPacket.rValid then advance cfg.numMshrs r.waitIdx
  else if c.bPacket.bValid then advance cfg.ways r.waitIdx
  else r.waitIdx

theorem advance_lt {m : Nat} (hm : 0 < m) (idx : BitVec 3) : (advance m idx).toNat < m := by
  unfold advance
  rw [BitVec.toNat_ofNat]
  exact (Nat.mod_le _ _).trans_lt (Nat.mod_lt _ hm)

theorem retire_retire (mshrs : Fin cfg.numMshrs → Mshr cfg) (idx : BitVec 3) :
    retire (retire mshrs idx) idx = retire mshrs idx := by
  funext i
  simp only [retire, assign_apply]
  split <;> rfl

theorem dramNets_eq :
    dramNets r c n =
      let setIdx := (mshrAt r.mshrs r.waitIdx).addr.l2SetIdx.setWidth cfg.numSetsBits
      let refills := fun w => c.rPacket.rValid && decide (w = lruWay r)
      { n with
        waiting := if victimActive r c then !victimAnswered r c else n.waiting
        readEn := fun _ => false
        writeEn := refills
        writeAddr := fun w => if refills w then setIdx else n.writeAddr w
        nextWriteData := (dramNets r c n).nextWriteData
        readMetaEn := refills
        writeMetaEn := fun _ => false
        writeMetaAddr := fun w => if refills w then setIdx else n.writeMetaAddr w
        next := { r with
          snoopReq := fun core =>
            if victimTargets r c core then
              snoopReqOf (c.readMeta (lruWay r)).addr .invalid (r.snoopReq core)
            else r.snoopReq core
          mshrs := dramMshrs r c
          freeIdx := if victimAllocates r c then advance cfg.numMshrs r.freeIdx else r.freeIdx
          waitIdx := nextWaitIdx r c
          lrus := if c.rPacket.rValid then touchLru r (lruWay r) r.lrus else r.lrus } } := by
  unfold dramNets dramMshrs retiredMshrs nextWaitIdx
  cases hr : c.rPacket.rValid with
  | false =>
      have hactive : victimActive r c = false := by simp [victimActive, hr]
      have htargets : ∀ core, victimTargets r c core = false := by simp [victimTargets, hactive]
      rw [refill_of_not_rValid r c _ hr]
      cases hb : c.bPacket.bValid <;>
        simp [writeResponse, defaults, victimAllocates, hactive, htargets, hb]
  | true =>
      rw [refill_eq r c _ hr]
      cases hb : c.bPacket.bValid <;>
        simp [writeResponse, defaults, hb, update_eq_ite, retire_retire]

def issuesWrite : Bool :=
  (mshrAt r.mshrs (nextWaitIdx r c)).valid && (mshrAt r.mshrs (nextWaitIdx r c)).writeReq

def issuesRead : Bool :=
  (mshrAt r.mshrs (nextWaitIdx r c)).valid && !(mshrAt r.mshrs (nextWaitIdx r c)).writeReq

theorem issue_eq (hwait : n.next.waitIdx = nextWaitIdx r c) :
    issue r c n =
      let head := mshrAt r.mshrs (nextWaitIdx r c)
      { n with
        next := { n.next with
          awPacket :=
            if issuesWrite r c && c.awReady then
              { awAddr := head.addr, awValid := true, awProt := 0 }
            else n.next.awPacket
          wPacket :=
            if issuesWrite r c && c.wReady then
              { wData := head.data, wValid := true, wStrb := BitVec.allOnes 64 }
            else n.next.wPacket
          arPacket :=
            if issuesRead r c && c.arReady then
              { arAddr := head.addr, arValid := true, arProt := 0 }
            else n.next.arPacket } } := by
  unfold issue issuesWrite issuesRead
  rw [hwait]
  cases hvalid : (mshrAt r.mshrs (nextWaitIdx r c)).valid <;>
    cases hwrite : (mshrAt r.mshrs (nextWaitIdx r c)).writeReq <;>
    cases haw : c.awReady <;> cases hw : c.wReady <;> cases har : c.arReady <;>
    simp [hvalid, hwrite]

theorem comb_eq :
    comb r c n =
      let m := request r c (dramNets r c n)
      let head := mshrAt r.mshrs (nextWaitIdx r c)
      { m with
        next := { m.next with
          awPacket :=
            if issuesWrite r c && c.awReady then
              { awAddr := head.addr, awValid := true, awProt := 0 }
            else r.awPacket
          wPacket :=
            if issuesWrite r c && c.wReady then
              { wData := head.data, wValid := true, wStrb := BitVec.allOnes 64 }
            else r.wPacket
          arPacket :=
            if issuesRead r c && c.arReady then
              { arAddr := head.addr, arValid := true, arProt := 0 }
            else r.arPacket } } := by
  have hwait : (request r c (dramNets r c n)).next.waitIdx = nextWaitIdx r c := by
    rw [request_eq, dramNets_eq]
  have haw : (request r c (dramNets r c n)).next.awPacket = r.awPacket := by
    rw [request_eq, dramNets_eq]
  have hw : (request r c (dramNets r c n)).next.wPacket = r.wPacket := by
    rw [request_eq, dramNets_eq]
  have har : (request r c (dramNets r c n)).next.arPacket = r.arPacket := by
    rw [request_eq, dramNets_eq]
  rw [← haw, ← hw, ← har]
  exact issue_eq r c _ hwait

section Comb

theorem comb_waiting :
    (comb r c n).waiting =
      if hitActive r c then !hitAnswered c
      else if victimActive r c then !victimAnswered r c
      else n.waiting := by
  rw [comb_eq, request_eq, dramNets_eq]

theorem comb_mshrExists :
    (comb r c n).mshrExists = (n.mshrExists || (misses r c && mshrMatch r c)) := by
  rw [comb_eq, request_eq, dramNets_eq]

theorem comb_readEn : (comb r c n).readEn = fun w => looksUp r c && decide (w = hitWay c) := by
  rw [comb_eq, request_eq, dramNets_eq]
  cases looksUp r c <;> simp [update_eq_ite]

theorem comb_readMetaEn :
    (comb r c n).readMetaEn = fun w =>
      (looksUp r c && decide (w = hitWay c)) || (c.rPacket.rValid && decide (w = lruWay r)) := by
  rw [comb_eq, request_eq, dramNets_eq]
  cases looksUp r c with
  | false => simp
  | true =>
      funext w
      by_cases hw : w = hitWay c <;> simp [hw]

theorem comb_readAddr :
    (comb r c n).readAddr = fun w =>
      if looksUp r c && decide (w = hitWay c) then
        c.l2EntryPacket.targetAddr.l2SetIdx.setWidth cfg.numSetsBits
      else n.readAddr w := by
  rw [comb_eq, request_eq, dramNets_eq]
  cases looksUp r c <;> simp [update_eq_ite]

theorem comb_readMetaAddr :
    (comb r c n).readMetaAddr = fun w =>
      if looksUp r c && decide (w = hitWay c) then
        c.l2EntryPacket.targetAddr.l2SetIdx.setWidth cfg.numSetsBits
      else n.readMetaAddr w := by
  rw [comb_eq, request_eq, dramNets_eq]
  cases looksUp r c <;> simp [update_eq_ite]

theorem comb_writeEn :
    (comb r c n).writeEn = fun w => c.rPacket.rValid && decide (w = lruWay r) := by
  rw [comb_eq, request_eq, dramNets_eq]

theorem comb_writeAddr :
    (comb r c n).writeAddr = fun w =>
      if c.rPacket.rValid && decide (w = lruWay r) then
        (mshrAt r.mshrs r.waitIdx).addr.l2SetIdx.setWidth cfg.numSetsBits
      else n.writeAddr w := by
  rw [comb_eq, request_eq, dramNets_eq]

theorem comb_writeMetaEn :
    (comb r c n).writeMetaEn = fun w => writesMeta r c && decide (w = hitWay c) := by
  rw [comb_eq, request_eq, dramNets_eq]
  cases writesMeta r c <;> simp [update_eq_ite]

theorem comb_writeMetaAddr :
    (comb r c n).writeMetaAddr = fun w =>
      if c.rPacket.rValid && decide (w = lruWay r) then
        (mshrAt r.mshrs r.waitIdx).addr.l2SetIdx.setWidth cfg.numSetsBits
      else n.writeMetaAddr w := by
  rw [comb_eq, request_eq, dramNets_eq]

/-- The refill assigns the response to `next_write_data` of its way before the request does. -/
def nextData (w : cfg.Way) : Option CacheLine :=
  (requestData r c w).or
    (if c.rPacket.rValid && decide (w = lruWay r) then some c.rPacket.rData else none)

theorem dramNets_nextWriteData :
    (dramNets r c n).nextWriteData = fun w =>
      if c.rPacket.rValid && decide (w = lruWay r) then c.rPacket.rData else n.nextWriteData w := by
  unfold dramNets
  cases hr : c.rPacket.rValid with
  | false =>
      rw [refill_of_not_rValid r c _ hr]
      cases hb : c.bPacket.bValid <;> simp [writeResponse, defaults, hb]
  | true =>
      rw [refill_eq r c _ hr]
      cases hb : c.bPacket.bValid <;> simp [writeResponse, defaults, hb, update_eq_ite]

theorem comb_nextWriteData :
    (comb r c n).nextWriteData = fun w => (nextData r c w).getD (n.nextWriteData w) := by
  rw [comb_eq]
  funext w
  simp only [request_nextWriteData, dramNets_nextWriteData, nextData]
  cases requestData r c w <;> cases c.rPacket.rValid && decide (w = lruWay r) <;> rfl

theorem comb_nextWriteMeta :
    (comb r c n).nextWriteMeta = fun w =>
      if w = hitWay c then (requestMeta r c).getD (n.nextWriteMeta w) else n.nextWriteMeta w := by
  rw [comb_eq]
  simp only [request_nextWriteMeta]
  rw [dramNets_eq]

theorem comb_l2ExitPacket :
    (comb r c n).next.l2ExitPacket = fun core =>
      if core = c.l2EntryPacket.coreId then exitAfter r c n.mshrExists (r.l2ExitPacket core)
      else r.l2ExitPacket core := by
  rw [comb_eq]
  simp only [request_l2ExitPacket]
  rw [dramNets_eq]

theorem comb_mshrs :
    (comb r c n).next.mshrs =
      if missAllocates r c n.mshrExists then
        assign (dramMshrs r c) r.freeIdx.toNat (missEntry c)
      else dramMshrs r c := by
  rw [comb_eq, request_eq, dramNets_eq]

theorem comb_freeIdx :
    (comb r c n).next.freeIdx =
      if missAllocates r c n.mshrExists || victimAllocates r c then
        advance cfg.numMshrs r.freeIdx
      else r.freeIdx := by
  rw [comb_eq, request_eq, dramNets_eq]
  cases missAllocates r c n.mshrExists <;> cases victimAllocates r c <;> rfl

theorem comb_waitIdx : (comb r c n).next.waitIdx = nextWaitIdx r c := by
  rw [comb_eq, request_eq, dramNets_eq]

theorem comb_snoopReq (core : cfg.Core) :
    (comb r c n).next.snoopReq core =
      let afterVictim := if victimTargets r c core then
          snoopReqOf (c.readMeta (lruWay r)).addr .invalid (r.snoopReq core)
        else r.snoopReq core
      if hitTargets r c core then hitSnoop c afterVictim else afterVictim := by
  rw [comb_eq, request_eq, dramNets_eq]

theorem comb_lrus :
    (comb r c n).next.lrus =
      if c.rPacket.rValid then touchLru r (lruWay r) r.lrus else r.lrus := by
  rw [comb_eq, request_eq, dramNets_eq]

theorem comb_awPacket :
    (comb r c n).next.awPacket =
      if issuesWrite r c && c.awReady then
        { awAddr := (mshrAt r.mshrs (nextWaitIdx r c)).addr, awValid := true, awProt := 0 }
      else r.awPacket := by
  rw [comb_eq]

theorem comb_wPacket :
    (comb r c n).next.wPacket =
      if issuesWrite r c && c.wReady then
        { wData := (mshrAt r.mshrs (nextWaitIdx r c)).data, wValid := true
          wStrb := BitVec.allOnes 64 }
      else r.wPacket := by
  rw [comb_eq]

theorem comb_arPacket :
    (comb r c n).next.arPacket =
      if issuesRead r c && c.arReady then
        { arAddr := (mshrAt r.mshrs (nextWaitIdx r c)).addr, arValid := true, arProt := 0 }
      else r.arPacket := by
  rw [comb_eq]

/-! ### Evaluating the block again -/

/-- What an evaluation on `c'` leaves in the nets without a default, one on `c` writes over. -/
structure Overrides (c c' : Cycle cfg) : Prop where
  drive : c'.toDrive = c.toDrive
  waiting : hitActive r c' || victimActive r c' → hitActive r c || victimActive r c
  misses : misses r c' → misses r c
  lookUp : ∀ w, looksUp r c' && decide (w = hitWay c') → looksUp r c && decide (w = hitWay c)
  data : ∀ w, nextData r c w = none → nextData r c' w = none
  packet : requestMeta r c = none → requestMeta r c' = none
  packetWay : (requestMeta r c').isSome → hitWay c' = hitWay c

theorem Overrides.refl : Overrides r c c where
  drive := rfl
  waiting := id
  misses := id
  lookUp _ := id
  data _ := id
  packet := id
  packetWay _ := rfl

variable {r c} {c' : Cycle cfg}

theorem Overrides.mshrExists (h : Overrides r c c') :
    (comb r c (comb r c' n)).mshrExists = (comb r c n).mshrExists := by
  have hmatch : mshrMatch r c' = mshrMatch r c := by
    unfold mshrMatch
    rw [h.drive]
  have hmisses := h.misses
  rw [comb_mshrExists, comb_mshrExists, comb_mshrExists, hmatch]
  cases hc' : MultiCoreL2Cache.misses r c' with
  | false => simp
  | true => simp [hmisses hc']

theorem Overrides.missAllocates (h : Overrides r c c') :
    missAllocates r c (comb r c' n).mshrExists = missAllocates r c n.mshrExists := by
  have hmatch : mshrMatch r c' = mshrMatch r c := by
    unfold mshrMatch
    rw [h.drive]
  rw [comb_mshrExists, hmatch]
  unfold MultiCoreL2Cache.missAllocates
  cases MultiCoreL2Cache.misses r c' <;> cases mshrMatch r c <;> simp

theorem Overrides.waiting_eq (h : Overrides r c c') :
    (comb r c (comb r c' n)).waiting = (comb r c n).waiting := by
  have hwaiting := h.waiting
  rw [comb_waiting, comb_waiting r c n]
  by_cases hhit : hitActive r c = true
  · rw [if_pos hhit, if_pos hhit]
  · rw [if_neg hhit, if_neg hhit]
    by_cases hvictim : victimActive r c = true
    · rw [if_pos hvictim, if_pos hvictim]
    · rw [if_neg hvictim, if_neg hvictim, comb_waiting]
      have hnone : ¬(hitActive r c' || victimActive r c') = true := by
        intro hactive
        simpa [hhit, hvictim] using hwaiting hactive
      simp only [Bool.or_eq_true, not_or] at hnone
      rw [if_neg hnone.1, if_neg hnone.2]

theorem Overrides.comb_eq (h : Overrides r c c') : comb r c (comb r c' n) = comb r c n := by
  have hdrive := h.drive
  ext1
  · exact h.waiting_eq n
  · exact h.mshrExists n
  · rw [comb_readEn, comb_readEn]
  · rw [comb_readAddr, comb_readAddr r c n, comb_readAddr]
    funext w
    dsimp only
    by_cases hw : (looksUp r c && decide (w = hitWay c)) = true
    · rw [if_pos hw, if_pos hw]
    · rw [if_neg hw, if_neg hw, if_neg fun hw' => hw (h.lookUp w hw')]
  · rw [comb_writeEn, comb_writeEn]
  · rw [comb_writeAddr, comb_writeAddr r c n, comb_writeAddr, hdrive]
    funext w
    dsimp only
    split <;> rfl
  · rw [comb_nextWriteData, comb_nextWriteData r c n, comb_nextWriteData]
    funext w
    dsimp only
    cases hdata : nextData r c w with
    | none => rw [h.data w hdata]; rfl
    | some line => rfl
  · rw [comb_readMetaEn, comb_readMetaEn]
  · rw [comb_readMetaAddr, comb_readMetaAddr r c n, comb_readMetaAddr]
    funext w
    dsimp only
    by_cases hw : (looksUp r c && decide (w = hitWay c)) = true
    · rw [if_pos hw, if_pos hw]
    · rw [if_neg hw, if_neg hw, if_neg fun hw' => hw (h.lookUp w hw')]
  · rw [comb_writeMetaEn, comb_writeMetaEn]
  · rw [comb_writeMetaAddr, comb_writeMetaAddr r c n, comb_writeMetaAddr, hdrive]
    funext w
    dsimp only
    split <;> rfl
  · rw [comb_nextWriteMeta, comb_nextWriteMeta r c n, comb_nextWriteMeta]
    funext w
    dsimp only
    cases hpacket : requestMeta r c' with
    | none => simp
    | some p =>
        rw [h.packetWay (by simp [hpacket])]
        cases hnew : requestMeta r c with
        | none => rw [h.packet hnew] at hpacket; cases hpacket
        | some q => split <;> rfl
  · have hallocates := h.missAllocates n
    ext1
    · rw [comb_l2ExitPacket, comb_l2ExitPacket r c n]
      unfold exitAfter
      rw [hallocates]
    · funext core
      rw [comb_snoopReq, comb_snoopReq]
    · rw [comb_mshrs, comb_mshrs r c n, hallocates]
    · rw [comb_freeIdx, comb_freeIdx r c n, hallocates]
    · rw [comb_waitIdx, comb_waitIdx]
    · rw [comb_awPacket, comb_awPacket]
    · rw [comb_wPacket, comb_wPacket]
    · rw [comb_arPacket, comb_arPacket]
    · rw [comb_lrus, comb_lrus]

theorem comb_comb : comb r c (comb r c n) = comb r c n := (Overrides.refl r c).comb_eq n

end Comb

end MultiCoreL2Cache
