import MultiCoreL2Cache.Proof.Memories
import MultiCoreL2Cache.Proof.Stalls

/-!
# A request held for a second cycle

The driver leaves its packet on the bus for as long as a transaction takes, and the cache takes up
what is on the bus in every cycle. A miss then finds the MSHR that it was given in the cycle before,
and stalls the core that it serves.
-/

namespace MultiCoreL2Cache

open Packed

variable {cfg : Config} {width : Nat} {s : WideSystem cfg width} {i i' : WideInput cfg width}
  {r : Regs cfg} {c : Cycle cfg} {n : Nets cfg} {w : cfg.Way}

/-- The packet of a quiet cycle is on the bus in a second one. -/
structure HeldRequest (s : WideSystem cfg width) (i i' : WideInput cfg width) : Prop where
  first : QuietCycle s i
  second : QuietCycle (s.step i) i'
  packet : i'.drive.l2EntryPacket = i.drive.l2EntryPacket

/-- The cycle changes no MSHR, not `free_idx`, no stall bit and no directory entry. -/
structure Harmless (s : WideSystem cfg width) (i : WideInput cfg width) : Prop where
  mshrs : (s.step i).regs.mshrs = s.regs.mshrs
  freeIdx : (s.step i).regs.freeIdx = s.regs.freeIdx
  stall : ∀ core, ((s.step i).regs.l2ExitPacket core).stall = (s.regs.l2ExitPacket core).stall
  tags : ∀ w set, (s.step i).arrays.tags w set = s.arrays.tags w set

/-- What the block reads when the cycle begins. -/
def WideSystem.opening (s : WideSystem cfg width) (i : WideInput cfg width) : Cycle cfg :=
  s.cycle i.drive i.tagX s.nets

/-- The request does not miss, unless the cache waits, and what it writes to the directory is there
already. -/
structure NothingNew (s : WideSystem cfg width) (i : WideInput cfg width) : Prop where
  served : misses s.regs (s.opening i) = true → s.nets.waiting = true
  rewritten : ∀ w set, TagWrites s.regs (s.opening i) s.nets w set →
    tagWord width i.drive.toUndriven w = s.arrays.tags w set

/-! ### A cycle without a response -/

/-- A miss always leaves a trace: an MSHR becomes valid, `free_idx` returns to the array, or the core
is stalled. -/
theorem comb_kept_iff (hread : c.rPacket.rValid = false) (hwrite : c.bPacket.bValid = false) :
    ((comb r c n).next.mshrs = r.mshrs ∧ (comb r c n).next.freeIdx = r.freeIdx ∧
        ∀ core, ((comb r c n).next.l2ExitPacket core).stall = (r.l2ExitPacket core).stall) ↔
      misses r c = false := by
  have hvictim : victimAllocates r c = false := by simp [victimAllocates, victimActive, hread]
  have hdram : dramMshrs r c = r.mshrs := by
    simp [dramMshrs, retiredMshrs, hvictim, hread, hwrite]
  rw [comb_mshrs, comb_freeIdx, hdram, hvictim, Bool.or_false]
  by_cases halloc : missAllocates r c n.mshrExists = true
  · rw [if_pos halloc, if_pos halloc]
    unfold missAllocates at halloc
    simp only [Bool.and_eq_true, Bool.not_eq_true'] at halloc
    refine iff_of_false ?_ (by simp [halloc.1.1])
    rintro ⟨hmshrs, hfree, -⟩
    by_cases hlt : r.freeIdx.toNat < cfg.numMshrs
    · have hslot := congrFun hmshrs ⟨_, hlt⟩
      have hempty := halloc.2
      rw [assign_apply, if_pos rfl] at hslot
      rw [mshrAt_of_lt _ hlt, ← hslot] at hempty
      cases hempty
    · rw [← hfree] at hlt
      exact hlt (advance_lt cfg.numMshrs_pos _)
  · have hrefuses : refuses r c n.mshrExists = misses r c := by simp [refuses, halloc]
    rw [if_neg halloc, if_neg halloc]
    simp only [comb_stall, hrefuses, true_and]
    constructor
    · intro hstall
      have hcore := hstall c.l2EntryPacket.coreId
      by_contra hmiss
      rw [Bool.not_eq_false] at hmiss
      rw [stalled_of_misses hmiss, hmiss, decide_eq_true rfl] at hcore
      cases hcore
    · intro hmiss core
      rw [hmiss, Bool.and_false, Bool.or_false]

/-! ### How a quiet cycle settles -/

theorem writesMeta_of_not_looksUp (hlook : looksUp r c = false)
    (hkind : c.l2EntryPacket.reqType = .read ∨ c.l2EntryPacket.reqType = .write) :
    writesMeta r c = false := by
  unfold looksUp readOrWrite at hlook
  unfold writesMeta
  rcases hkind with hread | hwrite
  · simp [hread]
  · cases hstall : stalled r c <;> simp_all

namespace QuietCycle

theorem leftOn (h : QuietCycle s i) (hen : i.nets.readMetaEn w = true) :
    LeftOn i.nets (s.settledCycle i) w := by
  have hnets := h.settles.nets_eq
  have hleft : LeftOn (comb s.regs (s.settledCycle i) i.nets) (s.settledCycle i) w :=
    comb_leftOn h.noRead (by rwa [hnets])
  rwa [hnets] at hleft

/-- Once a lookup has found nothing, no later evaluation of the cycle finds anything. -/
theorem settles_unmoved (h : QuietCycle s i) (hlook : looksUp s.regs (s.opening i) = false) :
    (i.nets.readMetaEn = fun _ => false) ∧ i.nets.waiting = s.nets.waiting := by
  have heval : ∀ n, looksUp s.regs (s.cycle i.drive i.tagX n) = false →
      n.waiting = s.nets.waiting → ((s.eval i.drive i.tagX n).readMetaEn = fun _ => false) ∧
        (s.eval i.drive i.tagX n).waiting = s.nets.waiting := by
    intro n hlook hwaiting
    have hread : (s.cycle i.drive i.tagX n).rPacket.rValid = false := h.noRead
    have hhit : hitActive s.regs (s.cycle i.drive i.tagX n) = false := by
      rw [hitActive, ← looksUp, hlook, Bool.false_and]
    have hvictim : victimActive s.regs (s.cycle i.drive i.tagX n) = false := by
      rw [victimActive, hread, Bool.false_and]
    unfold WideSystem.eval
    rw [comb_readMetaEn, comb_waiting, hlook, hread, hhit, hvictim]
    exact ⟨by simp, hwaiting⟩
  have hnets : s.eval i.drive i.tagX i.nets = i.nets := h.settles.2
  have hunmoved : looksUp s.regs (s.settledCycle i) = false ∧ i.nets.waiting = s.nets.waiting := by
    refine h.settles.settling.invariant
      (fun n => looksUp s.regs (s.cycle i.drive i.tagX n) = false ∧ n.waiting = s.nets.waiting)
      ⟨hlook, rfl⟩ fun n hn => ?_
    obtain ⟨hen, hwaiting⟩ := heval n hn.1 hn.2
    exact ⟨looksUp_of_blind fun w => WideSystem.valid_of_not_enabled (congrFun hen w), hwaiting⟩
  have hlast := heval i.nets hunmoved.1 hunmoved.2
  rwa [hnets] at hlast

theorem settled_blind (h : QuietCycle s i) (hlook : looksUp s.regs (s.opening i) = false) :
    (s.settledCycle i).Blind := fun _ =>
  WideSystem.valid_of_not_enabled (congrFun (h.settles_unmoved hlook).1 _)

section

variable (h : QuietCycle s i)
  (hleft : ∀ w, s.nets.readMetaEn w = true → LeftOn s.nets (s.opening i) w)
include h hleft

theorem settledCycle_eq (hlook : looksUp s.regs (s.opening i) = true) :
    s.settledCycle i = s.opening i := by
  have hcycle := WideSystem.cycle_eval_of_looksUp hleft h.noRead hlook
  have hnets : i.nets = s.eval i.drive i.tagX s.nets :=
    h.settles.settling.unique (s.settles_eval i.drive i.tagX 0 hcycle)
  rw [WideSystem.settledCycle, hnets, hcycle]
  rfl

theorem misses_eq : misses s.regs (s.settledCycle i) = misses s.regs (s.opening i) := by
  cases hlook : looksUp s.regs (s.opening i) with
  | true => rw [h.settledCycle_eq hleft hlook]
  | false =>
      have hblind := h.settled_blind hlook
      have hsame : readOrWrite s.regs (s.settledCycle i) = readOrWrite s.regs (s.opening i) := rfl
      rw [misses_of_blind hblind, hsame]
      unfold looksUp at hlook
      unfold misses
      cases hreq : readOrWrite s.regs (s.opening i) <;> simp_all

theorem tagWrites_opening_iff (set : Fin cfg.numSets) :
    TagWrites s.regs (s.settledCycle i) s.nets w set ↔
      TagWrites s.regs (s.opening i) s.nets w set := by
  cases hlook : looksUp s.regs (s.opening i) with
  | true => rw [h.settledCycle_eq hleft hlook]
  | false =>
      have hblind := h.settled_blind hlook
      by_cases hkind : i.drive.l2EntryPacket.reqType = .read ∨ i.drive.l2EntryPacket.reqType = .write
      · have hlook' : looksUp s.regs (s.settledCycle i) = false := looksUp_of_blind hblind
        have hquiet := writesMeta_of_not_looksUp hlook hkind
        have hquiet' := writesMeta_of_not_looksUp hlook' hkind
        simp [TagWrites, hquiet, hquiet']
      · -- nothing was left enabled, so the first evaluation is as blind as the last
        have hopen : (s.opening i).Blind := fun w =>
          WideSystem.valid_of_not_enabled (by
            by_contra hen
            exact hkind (hleft w (by simpa using hen)).kind)
        have hwrites : writesMeta s.regs (s.settledCycle i) = writesMeta s.regs (s.opening i) := by
          unfold writesMeta
          rw [hitAny_of_blind hblind, hitAny_of_blind hopen, Bool.false_and, Bool.false_and]
          rfl
        unfold TagWrites
        rw [hwrites, hitWay_of_blind hblind, hitWay_of_blind hopen]
        exact Iff.rfl

end

theorem step_regs (h : QuietCycle s i) (hacts : i.nets.waiting = false) :
    (s.step i).regs = (comb s.regs (s.settledCycle i) i.nets).next := by
  have hclocked : (s.step i).regs = clocked i.drive.reset s.regs i.nets := rfl
  rw [hclocked, clocked, h.running, hacts, h.settles.nets_eq]
  rfl

/-- The registers that a request can change stay as they are. -/
theorem regs_kept_iff (h : QuietCycle s i) :
    ((s.step i).regs.mshrs = s.regs.mshrs ∧ (s.step i).regs.freeIdx = s.regs.freeIdx ∧
        ∀ core, ((s.step i).regs.l2ExitPacket core).stall = (s.regs.l2ExitPacket core).stall) ↔
      (misses s.regs (s.settledCycle i) = true → i.nets.waiting = true) := by
  by_cases hwaiting : i.nets.waiting = true
  · rw [step_regs_of_waiting h.running hwaiting]
    exact iff_of_true ⟨rfl, rfl, fun _ => rfl⟩ fun _ => hwaiting
  · rw [h.step_regs (by simpa using hwaiting), comb_kept_iff h.noRead h.noWrite]
    simp [hwaiting]

theorem harmless_iff (h : QuietCycle s i)
    (hleft : ∀ w, s.nets.readMetaEn w = true → LeftOn s.nets (s.opening i) w) :
    Harmless s i ↔ NothingNew s i := by
  have hregs := h.regs_kept_iff
  have htags := tags_kept_iff h.settles h.running
  have hmisses := h.misses_eq hleft
  have hwaiting : misses s.regs (s.opening i) = true → i.nets.waiting = s.nets.waiting := by
    intro hmiss
    refine (h.settles_unmoved ?_).2
    simp only [misses, Bool.and_eq_true, Bool.not_eq_true'] at hmiss
    rw [looksUp, hmiss.2, Bool.and_false]
  rw [hmisses] at hregs
  constructor
  · rintro ⟨hmshrs, hfree, hstall, htag⟩
    refine ⟨fun hmiss => ?_, fun w set hwrites => ?_⟩
    · rw [← hwaiting hmiss]
      exact hregs.mp ⟨hmshrs, hfree, hstall⟩ hmiss
    · exact htags.mp htag w set ((h.tagWrites_opening_iff hleft set).mpr hwrites)
  · rintro ⟨hserved, hrewritten⟩
    obtain ⟨hmshrs, hfree, hstall⟩ := hregs.mpr fun hmiss => by rw [hwaiting hmiss, hserved hmiss]
    refine ⟨hmshrs, hfree, hstall, htags.mpr fun w set hwrites => ?_⟩
    exact hrewritten w set ((h.tagWrites_opening_iff hleft set).mp hwrites)

end QuietCycle

namespace HeldRequest

theorem leftOn (h : HeldRequest s i i') (hen : (s.step i).nets.readMetaEn w = true) :
    LeftOn (s.step i).nets ((s.step i).opening i') w :=
  (h.first.leftOn hen).congr h.packet

/-- A miss that is given an MSHR misses again, and this time finds its own. -/
theorem misses_again (h : HeldRequest s i i') (hacts : i.nets.waiting = false)
    (halloc : missAllocates s.regs (s.settledCycle i) i.nets.mshrExists = true) :
    misses (s.step i).regs ((s.step i).opening i') = true := by
  have hmiss : misses s.regs (s.settledCycle i) = true := by
    simp only [missAllocates, Bool.and_eq_true] at halloc
    exact halloc.1.1
  simp only [misses, Bool.and_eq_true, Bool.not_eq_true'] at hmiss
  have hopen : ((s.step i).opening i').Blind := by
    intro w
    refine WideSystem.valid_of_not_enabled ?_
    have hread : (s.settledCycle i).rPacket.rValid = false := h.first.noRead
    have hnets : (s.step i).nets = comb s.regs (s.settledCycle i) i.nets :=
      h.first.settles.nets_eq.symm
    rw [hnets, comb_readMetaEn, looksUp, hmiss.2, hread]
    simp
  have hpacket : ((s.step i).opening i').l2EntryPacket = (s.settledCycle i).l2EntryPacket := h.packet
  have hstall : stalled (s.step i).regs ((s.step i).opening i') =
      stalled s.regs (s.settledCycle i) := by
    unfold stalled
    rw [hpacket, h.first.step_regs hacts, comb_stall, refuses, halloc]
    simp
  rw [misses_of_blind hopen, readOrWrite, hstall, hpacket]
  exact hmiss.1

/-- A request that has been given an MSHR is never held without harm. -/
theorem not_harmless_of_allocates (h : HeldRequest s i i') (hacts : i.nets.waiting = false)
    (halloc : missAllocates s.regs (s.settledCycle i) i.nets.mshrExists = true) :
    ¬Harmless (s.step i) i' := by
  intro hharmless
  have hnew := (h.second.harmless_iff fun _ => h.leftOn).mp hharmless
  have hwaiting : i.nets.waiting = true := hnew.served (h.misses_again hacts halloc)
  rw [hacts] at hwaiting
  cases hwaiting

end HeldRequest

/-- **Holding a request is harmless exactly where it brings nothing new.** -/
theorem hold_harmless_iff (s : WideSystem cfg width) (i i' : WideInput cfg width)
    (h : HeldRequest s i i') : Harmless (s.step i) i' ↔ NothingNew (s.step i) i' :=
  h.second.harmless_iff fun _ => h.leftOn

/-- The first of two cycles in which core 1 reads 0x40. -/
def heldFirst : WideInput .shipped Config.shipped.metaWidth :=
  WideSystem.ofDrive (.request .read 0x40 1)
    ((System.fresh .shipped).settled (.request .read 0x40 1))

def heldSecond : WideInput .shipped Config.shipped.metaWidth :=
  WideSystem.ofDrive (.request .read 0x40 1)
    (((System.fresh .shipped).step (.request .read 0x40 1)).settled (.request .read 0x40 1))

theorem heldRead : HeldRequest (.ofSystem (.fresh .shipped)) heldFirst heldSecond where
  first := .ofSystem _ _ rfl rfl rfl
  second := .ofSystem ((System.fresh .shipped).step _) _ rfl rfl rfl
  packet := rfl

theorem heldRead_harmless_iff :
    Harmless ((WideSystem.ofSystem (.fresh .shipped)).step heldFirst) heldSecond ↔
      NothingNew ((WideSystem.ofSystem (.fresh .shipped)).step heldFirst) heldSecond :=
  hold_harmless_iff _ _ _ heldRead

theorem held_read_stalls :
    ¬∀ (cfg : Config) (s : System cfg) (input : Nat → Drive cfg) (k : Nat)
      (i i' : WideInput cfg cfg.metaWidth), s.AfterReset →
      HeldRequest (.ofSystem (s.run input k)) i i' →
      Harmless ((WideSystem.ofSystem (s.run input k)).step i) i' := by
  intro hclaim
  have hharmless := hclaim .shipped (.fresh _) (fun _ => .idle _) 0 heldFirst heldSecond ⟨rfl, rfl⟩
    heldRead
  exact heldRead.not_harmless_of_allocates (by decide +kernel) (by decide +kernel) hharmless

end MultiCoreL2Cache
