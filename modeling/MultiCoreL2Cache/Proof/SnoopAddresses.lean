import MultiCoreL2Cache.Proof.CombEffects

/-!
# The addresses in snoops

Four places raise a snoop and wait for it. Each puts an address in the request, compares an address
with the responses, and lowers `waiting`. The four do not agree: the READ puts its own request type in
the request, the dirty victim compares nothing, and what lowers `waiting` for a hit does so for a
victim of the same cycle too.
-/

namespace MultiCoreL2Cache

variable {cfg : Config} {r : Regs cfg} {c : Cycle cfg} {n : Nets cfg} {core : cfg.Core}

inductive SnoopPlace
  | modifiedVictim
  | dirtyVictim
  | readHit
  | writeHit

namespace SnoopPlace

def Active (r : Regs cfg) (c : Cycle cfg) : SnoopPlace → Prop
  | modifiedVictim => c.rPacket.rValid = true ∧ victimModified c (lruWay r) = true
  | dirtyVictim =>
      c.rPacket.rValid = true ∧ victimModified c (lruWay r) = false ∧
        victimDirty c (lruWay r) = true
  | readHit => hitActive r c = true ∧ c.l2EntryPacket.reqType = .read
  | writeHit => hitActive r c = true ∧ c.l2EntryPacket.reqType = .write

/-- The line that the cache waits for. -/
def lineAddr (r : Regs cfg) (c : Cycle cfg) : SnoopPlace → Addr
  | modifiedVictim | dirtyVictim => (c.readMeta (lruWay r)).addr
  | readHit | writeHit => c.l2EntryPacket.targetAddr

def Snoops (r : Regs cfg) (c : Cycle cfg) (core : cfg.Core) : SnoopPlace → Prop
  | modifiedVictim => targetCore (c.readMeta (lruWay r)) = some core
  | dirtyVictim => True
  | readHit | writeHit => targetCore (c.readMeta (hitWay c)) = some core

/-- The section of the block that the place is in. -/
def code (r : Regs cfg) (c : Cycle cfg) : SnoopPlace → Nets cfg → Nets cfg
  | modifiedVictim | dirtyVictim => evictVictim r c (lruWay r)
  | readHit | writeHit => request r c

end SnoopPlace

def Answers (c : Cycle cfg) (core : cfg.Core) (addr : Addr) : Prop :=
  (c.snoopResp core).valid = true ∧ (c.snoopResp core).addr = addr

/-- Every place asks for the line it waits for, and no wait ends before all cores that the cycle snoops
have answered for their line. -/
structure SnoopsAgree (r : Regs cfg) (c : Cycle cfg) (n : Nets cfg) : Prop where
  requests : ∀ place : SnoopPlace, place.Active r c → ∀ core, place.Snoops r c core →
    ((place.code r c n).next.snoopReq core).addr = place.lineAddr r c
  releases : (comb r c n).waiting = false →
    ∀ place : SnoopPlace, place.Active r c → ∀ core, place.Snoops r c core →
      Answers c core (place.lineAddr r c)

/-- A READ snoops a core only for the address 1, the code of READ; and where a dirty victim finds the
four responses valid, or a hit is answered in the cycle of a victim, all cores snooped for the victim
answer for it. -/
structure AddressesMatch (r : Regs cfg) (c : Cycle cfg) : Prop where
  read : SnoopPlace.readHit.Active r c → ∀ core, SnoopPlace.readHit.Snoops r c core →
    c.l2EntryPacket.targetAddr = 1
  dirty : SnoopPlace.dirtyVictim.Active r c → hitActive r c = false → allBack c = true →
    ∀ core, Answers c core (c.readMeta (lruWay r)).addr
  both : hitActive r c = true → hitAnswered c = true → ∀ core, victimTargets r c core = true →
    Answers c core (c.readMeta (lruWay r)).addr

/-! ### What each place does -/

theorem victimActive_iff :
    victimActive r c = true ↔
      SnoopPlace.modifiedVictim.Active r c ∨ SnoopPlace.dirtyVictim.Active r c := by
  unfold victimActive SnoopPlace.Active
  cases c.rPacket.rValid <;> cases victimModified c (lruWay r) <;>
    cases victimDirty c (lruWay r) <;> simp

theorem victimTargets_iff :
    victimTargets r c core = true ↔
      (SnoopPlace.modifiedVictim.Active r c ∧ SnoopPlace.modifiedVictim.Snoops r c core) ∨
        SnoopPlace.dirtyVictim.Active r c := by
  unfold victimTargets victimActive SnoopPlace.Active SnoopPlace.Snoops
  cases c.rPacket.rValid <;> cases victimModified c (lruWay r) <;>
    cases victimDirty c (lruWay r) <;> simp

theorem evictVictim_request (n : Nets cfg) (h : victimTargets r c core = true) :
    ((evictVictim r c (lruWay r) n).next.snoopReq core).addr = (c.readMeta (lruWay r)).addr := by
  have hread : c.rPacket.rValid = true := by
    unfold victimTargets victimActive at h
    simp only [Bool.and_eq_true] at h
    exact h.1.1
  rw [evictVictim_eq r c n hread]
  dsimp only
  rw [if_pos h]
  rfl

theorem request_request (n : Nets cfg) (hactive : hitActive r c = true)
    (htarget : targetCore (c.readMeta (hitWay c)) = some core) :
    ((request r c n).next.snoopReq core).addr =
      if c.l2EntryPacket.reqType = .read then c.l2EntryPacket.reqType.toBits.setWidth 32
      else c.l2EntryPacket.targetAddr := by
  have htargets : hitTargets r c core = true := by simp [hitTargets, hactive, htarget]
  rw [request_eq]
  dsimp only
  rw [if_pos htargets, hitSnoop]
  split <;> rfl

/-- A victim's places ask for the victim, and a hit of a READ asks for its request type. -/
theorem requests_iff (r : Regs cfg) (c : Cycle cfg) (n : Nets cfg) :
    (∀ place : SnoopPlace, place.Active r c → ∀ core, place.Snoops r c core →
        ((place.code r c n).next.snoopReq core).addr = place.lineAddr r c) ↔
      (SnoopPlace.readHit.Active r c → ∀ core, SnoopPlace.readHit.Snoops r c core →
        c.l2EntryPacket.targetAddr = 1) := by
  constructor
  · intro hall hactive core hsnoops
    have haddr := hall .readHit hactive core hsnoops
    unfold SnoopPlace.code SnoopPlace.lineAddr at haddr
    rw [request_request n hactive.1 hsnoops, if_pos hactive.2, hactive.2] at haddr
    exact haddr.symm
  · intro hread place hactive core hsnoops
    cases place with
    | modifiedVictim => exact evictVictim_request n (victimTargets_iff.mpr (.inl ⟨hactive, hsnoops⟩))
    | dirtyVictim => exact evictVictim_request n (victimTargets_iff.mpr (.inr hactive))
    | readHit =>
        have htarget := hread hactive core hsnoops
        unfold SnoopPlace.code SnoopPlace.lineAddr
        rw [request_request n hactive.1 hsnoops, if_pos hactive.2, hactive.2, htarget]
        rfl
    | writeHit =>
        unfold SnoopPlace.code SnoopPlace.lineAddr
        rw [request_request n hactive.1 hsnoops, if_neg (by simp [hactive.2])]

/-! ### What ends a wait -/

theorem answers_of_snoopAnswers {target : Option cfg.Core} {addr : Addr}
    (h : snoopAnswers c target addr = true) (htarget : target = some core) :
    Answers c core addr := by
  rw [htarget] at h
  simpa [snoopAnswers, Answers] using h

theorem hit_releases (hactive : hitActive r c = true)
    (hreleased : (comb r c n).waiting = false) : hitAnswered c = true := by
  rw [comb_waiting, if_pos hactive] at hreleased
  simpa using hreleased

theorem victim_releases (hactive : victimActive r c = true) (hnone : ¬hitActive r c = true)
    (hreleased : (comb r c n).waiting = false) : victimAnswered r c = true := by
  rw [comb_waiting, if_neg hnone, if_pos hactive] at hreleased
  simpa using hreleased

theorem releases_of_match (h : AddressesMatch r c) (hreleased : (comb r c n).waiting = false)
    (place : SnoopPlace) (hactive : place.Active r c) (core : cfg.Core)
    (hsnoops : place.Snoops r c core) : Answers c core (place.lineAddr r c) := by
  -- a hit decides alone when it snoops, whatever the victim of the same cycle waits for
  by_cases hhit : hitActive r c = true
  · have hanswered := hit_releases hhit hreleased
    cases place with
    | modifiedVictim =>
        exact h.both hhit hanswered core (victimTargets_iff.mpr (.inl ⟨hactive, hsnoops⟩))
    | dirtyVictim => exact h.both hhit hanswered core (victimTargets_iff.mpr (.inr hactive))
    | readHit => exact answers_of_snoopAnswers hanswered hsnoops
    | writeHit => exact answers_of_snoopAnswers hanswered hsnoops
  · cases place with
    | modifiedVictim =>
        have hanswered := victim_releases (victimActive_iff.mpr (.inl hactive)) hhit hreleased
        rw [victimAnswered, if_pos hactive.2] at hanswered
        exact answers_of_snoopAnswers hanswered hsnoops
    | dirtyVictim =>
        have hanswered := victim_releases (victimActive_iff.mpr (.inr hactive)) hhit hreleased
        rw [victimAnswered, if_neg (by simp [hactive.2.1])] at hanswered
        exact h.dirty hactive (by simpa using hhit) hanswered core
    | readHit => exact absurd hactive.1 hhit
    | writeHit => exact absurd hactive.1 hhit

/-- **Snoop addresses agree exactly where the responses and the READ happen to match.** -/
theorem snoops_agree_iff (r : Regs cfg) (c : Cycle cfg) (n : Nets cfg) :
    SnoopsAgree r c n ↔ AddressesMatch r c := by
  constructor
  · intro hagree
    refine ⟨(requests_iff r c n).mp hagree.requests, fun hactive hnone hback core => ?_,
      fun hhit hanswered core htargets => ?_⟩
    · refine hagree.releases ?_ .dirtyVictim hactive core trivial
      have hanswered : victimAnswered r c = true := by
        rw [victimAnswered, if_neg (by simp [hactive.2.1])]
        exact hback
      rw [comb_waiting, if_neg (by simp [hnone]), if_pos (victimActive_iff.mpr (.inr hactive)),
        hanswered]
      rfl
    · have hreleased : (comb r c n).waiting = false := by
        rw [comb_waiting, if_pos hhit, hanswered]
        rfl
      rcases victimTargets_iff.mp htargets with ⟨hactive, hsnoops⟩ | hactive
      · exact hagree.releases hreleased .modifiedVictim hactive core hsnoops
      · exact hagree.releases hreleased .dirtyVictim hactive core trivial
  · intro hmatch
    exact ⟨(requests_iff r c n).mpr hmatch.read, releases_of_match hmatch⟩

/-- Core 0 reads the line at 0x40, which core 1 has in MODIFIED. -/
def readOfModified : Cycle .shipped :=
  { Cycle.idle .shipped with
    toDrive := .request .read 0x40 0
    readMeta := fun w => if w = 0 then ⟨true, false, 0b0010, .modified, 0x40⟩ else .zero _ }

theorem readSnoop_misaddressed :
    ¬∀ (cfg : Config) (r : Regs cfg) (c : Cycle cfg) (n : Nets cfg), SnoopsAgree r c n := by
  intro hclaim
  have howner : targetCore (readOfModified.readMeta (hitWay readOfModified)) = some 1 := by
    decide +kernel
  have haddr := (hclaim .shipped (.reset _) readOfModified (.zero _)).requests .readHit
    ⟨by decide +kernel, rfl⟩ 1 howner
  exact absurd haddr (by decide +kernel)

end MultiCoreL2Cache
