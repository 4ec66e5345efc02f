import Mathlib.Data.List.Forall2
import MultiCoreL2Cache.Model.Stimulus

/-!
# What the driver makes of a call

Every call comes to the bus, in order, with its kind, its address and its core. The driver selects the
line by the kind and sends zeros for all but a WRITE, so the line of an eviction is lost.
-/

namespace MultiCoreL2Cache

variable {cfg : Config} {call : LineCall} {p : L2EntryPacket cfg}

namespace LineCall

/-- A line-aligned address and a core that exists. -/
structure Legal (cfg : Config) (call : LineCall) : Prop where
  aligned : call.sendOne.a.l2Offset = 0
  core_lt : call.sendOne.core < cfg.numCores

/-- The packet is the one that the call asks for, with its line if the call carries one. -/
def Requested (p : L2EntryPacket cfg) : LineCall → Prop
  | .doReadLine a core => p.reqType = .read ∧ p.targetAddr = a ∧ p.coreId.val = core
  | .doWriteLine a w core =>
      p.reqType = .write ∧ p.targetAddr = a ∧ p.coreId.val = core ∧ p.cacheLine = w
  | .doUpgradeLine a core => p.reqType = .upgrade ∧ p.targetAddr = a ∧ p.coreId.val = core
  | .doEvictLine a w core =>
      p.reqType = .evict ∧ p.targetAddr = a ∧ p.coreId.val = core ∧ p.cacheLine = w

/-- Only an eviction has a line to lose, and zeros are not lost. -/
def LineKept : LineCall → Prop
  | .doEvictLine _ w _ => w = 0#512
  | _ => True

/-- The packet that the driver makes of the call. -/
structure Carried (call : LineCall) (p : L2EntryPacket cfg) : Prop where
  reqType : p.reqType = call.sendOne.kind
  targetAddr : p.targetAddr = call.sendOne.a
  coreId : p.coreId.val = call.sendOne.core
  cacheLine : p.cacheLine = if call.sendOne.kind = .write then call.sendOne.w else 0#512

theorem Carried.requested_iff (h : call.Carried p) : call.Requested p ↔ call.LineKept := by
  have hkind := h.reqType
  have haddr := h.targetAddr
  have hcore := h.coreId
  have hline := h.cacheLine
  cases call with
  | doReadLine a core => exact iff_of_true ⟨hkind, haddr, hcore⟩ trivial
  | doWriteLine a w core => exact iff_of_true ⟨hkind, haddr, hcore, hline⟩ trivial
  | doUpgradeLine a core => exact iff_of_true ⟨hkind, haddr, hcore⟩ trivial
  | doEvictLine a w core =>
      constructor
      · rintro ⟨-, -, -, hw⟩
        exact hw.symm.trans hline
      · rintro rfl
        exact ⟨hkind, haddr, hcore, hline⟩

/-! ### One transaction -/

variable {before req : CachePacket cfg}

theorem Legal.exists_allows (h : call.Legal cfg) :
    ∃ req : CachePacket cfg, call.sendOne.Allows req :=
  ⟨{ reqType := call.sendOne.kind
     addr := call.sendOne.a
     coreId := ⟨call.sendOne.core, h.core_lt⟩
     wdata := call.sendOne.w }, h.aligned, rfl, rfl, rfl, rfl⟩

theorem Legal.allows (h : call.Legal cfg) (hreq : Randomizes call.sendOne.Allows before req) :
    call.sendOne.Allows req := by
  cases hreq with
  | solved hallows => exact hallows
  | failed hnone =>
      obtain ⟨req, hallows⟩ := h.exists_allows
      exact absurd hallows (hnone req)

theorem carried_of_allows (h : call.sendOne.Allows req) : call.Carried req.toEntryPacket where
  reqType := h.reqType
  targetAddr := h.addr
  coreId := h.coreId
  cacheLine := by
    rw [← h.reqType, ← h.wdata]
    rfl

end LineCall

/-! ### Runs -/

namespace Stimulus

/-- The packet that the driver is about to put on the bus. -/
def DriverState.next : DriverState cfg → List (L2EntryPacket cfg)
  | .holds req => [req.toEntryPacket]
  | _ => []

/-- What has been driven, and is about to be, carries the calls that were made. -/
def CarriesCalls (calls : List LineCall) (s : Stimulus cfg) : Prop :=
  ∃ made, calls = made ++ s.calls ∧
    List.Forall₂ LineCall.Carried made (s.driven ++ DriverState.next s.driver)

theorem step_carriesCalls {calls : List LineCall} (hlegal : ∀ call ∈ calls, call.Legal cfg)
    {s s' : Stimulus cfg} (hs : CarriesCalls calls s) (hstep : Step s s') :
    CarriesCalls calls s' := by
  obtain ⟨made, hcalls, hcarried⟩ := hs
  cases hstep with
  | @send call rest driven before req hreq =>
      have hmem : call ∈ calls := by
        rw [hcalls]
        exact List.mem_append_right _ List.mem_cons_self
      have hnew := LineCall.carried_of_allows ((hlegal call hmem).allows hreq)
      refine ⟨made ++ [call], ?_, ?_⟩
      · rw [hcalls, List.append_assoc]
        rfl
      · refine List.rel_append ?_ (.cons hnew .nil)
        simpa only [DriverState.next, List.append_nil] using hcarried
  | drive =>
      refine ⟨made, hcalls, ?_⟩
      simpa only [DriverState.next, List.append_nil] using hcarried
  | itemDone => exact ⟨made, hcalls, hcarried⟩

theorem run_carriesCalls {calls : List LineCall} (hlegal : ∀ call ∈ calls, call.Legal cfg)
    {s s' : Stimulus cfg} (hs : CarriesCalls calls s) (hrun : Relation.ReflTransGen Step s s') :
    CarriesCalls calls s' := by
  induction hrun with
  | refl => exact hs
  | tail _ hstep ih => exact step_carriesCalls hlegal ih hstep

theorem Drives.carried {calls : List LineCall} (hlegal : ∀ call ∈ calls, call.Legal cfg)
    {packets : List (L2EntryPacket cfg)} (h : Drives calls packets) :
    List.Forall₂ LineCall.Carried calls packets := by
  obtain ⟨made, hcalls, hcarried⟩ := run_carriesCalls hlegal ⟨[], rfl, .nil⟩ h
  rw [List.append_nil] at hcalls
  simpa only [hcalls, DriverState.next, List.append_nil] using hcarried

theorem exists_run {calls : List LineCall} (hlegal : ∀ call ∈ calls, call.Legal cfg)
    (driven : List (L2EntryPacket cfg)) :
    ∃ packets, Relation.ReflTransGen Step (⟨calls, .waiting, driven⟩ : Stimulus cfg)
      ⟨[], .waiting, packets⟩ := by
  induction calls generalizing driven with
  | nil => exact ⟨driven, .refl⟩
  | cons call calls ih =>
      obtain ⟨req, hallows⟩ := (hlegal call List.mem_cons_self).exists_allows
      obtain ⟨packets, hrest⟩ := ih (fun call hcall => hlegal call (List.mem_cons_of_mem _ hcall))
        (driven ++ [req.toEntryPacket])
      have hreq : Randomizes call.sendOne.Allows req req := .solved hallows
      exact ⟨packets, .head (.send hreq) (.head .drive (.head .itemDone hrest))⟩

end Stimulus

theorem forall₂_requested_iff {calls : List LineCall} {packets : List (L2EntryPacket cfg)}
    (h : List.Forall₂ LineCall.Carried calls packets) :
    List.Forall₂ (fun call p => call.Requested p) calls packets ↔
      ∀ call ∈ calls, call.LineKept := by
  induction h with
  | nil => exact iff_of_true .nil (List.forall_mem_nil _)
  | cons hcarried _ ih =>
      rw [List.forall₂_cons, List.forall_mem_cons, hcarried.requested_iff, ih]

/-- **The bus shows what was called for exactly when no eviction carries a line.** Every list of legal
calls is driven to its end. -/
theorem stimulus_faithful_iff (calls : List LineCall) (hlegal : ∀ call ∈ calls, call.Legal cfg) :
    (∃ packets : List (L2EntryPacket cfg), Stimulus.Drives calls packets) ∧
      ∀ packets : List (L2EntryPacket cfg), Stimulus.Drives calls packets →
        (List.Forall₂ (fun call p => call.Requested p) calls packets ↔
          ∀ call ∈ calls, call.LineKept) :=
  ⟨Stimulus.exists_run hlegal [], fun _ hdrives => forall₂_requested_iff (hdrives.carried hlegal)⟩

def writeAndUpgrade : List LineCall := [.doWriteLine 0x40 7#512 1, .doUpgradeLine 0x80 2]

theorem writeAndUpgrade_faithful :
    ∃ packets : List (L2EntryPacket .shipped), Stimulus.Drives writeAndUpgrade packets ∧
      List.Forall₂ (fun call p => call.Requested p) writeAndUpgrade packets := by
  have hlegal : ∀ call ∈ writeAndUpgrade, call.Legal .shipped := by
    simp only [writeAndUpgrade, List.forall_mem_cons]
    exact ⟨⟨by decide, by decide⟩, ⟨by decide, by decide⟩, List.forall_mem_nil _⟩
  obtain ⟨⟨packets, hdrives⟩, hfaithful⟩ := stimulus_faithful_iff writeAndUpgrade hlegal
  refine ⟨packets, hdrives, (hfaithful packets hdrives).mpr ?_⟩
  simp [writeAndUpgrade, LineCall.LineKept]

theorem evicted_line_not_sent :
    ¬∀ (cfg : Config) (calls : List LineCall) (packets : List (L2EntryPacket cfg)),
      (∀ call ∈ calls, call.Legal cfg) → Stimulus.Drives calls packets →
      List.Forall₂ (fun call p => call.Requested p) calls packets := by
  intro hclaim
  have hlegal : ∀ call ∈ [LineCall.doEvictLine 0x40 7#512 1], call.Legal .shipped := by
    simp only [List.forall_mem_singleton]
    exact ⟨by decide, by decide⟩
  obtain ⟨packets, hdrives⟩ := Stimulus.exists_run hlegal []
  have hkept := (forall₂_requested_iff (Stimulus.Drives.carried hlegal hdrives)).mp
    (hclaim .shipped _ packets hlegal hdrives)
  have hzero : 7#512 = 0#512 := hkept _ List.mem_cons_self
  exact absurd (congrArg (·.getLsbD 0) hzero) (by simp)

end MultiCoreL2Cache
