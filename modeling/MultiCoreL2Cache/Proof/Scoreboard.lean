import MultiCoreL2Cache.Model.Testbench

/-!
# What the scoreboard checks

Nothing calls `note_write`, so the scoreboard expects zeros at every address whatever was driven. Had
each WRITE been noted, its reports would be exact.
-/

namespace MultiCoreL2Cache

variable {cfg : Config} {past : List (Event cfg)} {bus : MonitorBus cfg} {reply : CachePacket cfg}
  {report : Report}

/-- The line that an action writes to `a`: that of a WRITE which the driver puts on the bus. -/
def Event.writes (a : Addr) : Event cfg → Option CacheLine
  | .drives req =>
      let p := req.toEntryPacket
      if p.reqType = .write ∧ p.targetAddr = a then some p.cacheLine else none
  | .samples _ => none

def latestWrite (past : List (Event cfg)) (a : Addr) : Option CacheLine :=
  (past.filterMap (Event.writes a)).getLast?

def writtenLine (past : List (Event cfg)) (a : Addr) : CacheLine := (latestWrite past a).getD 0#512

/-- The report is a match exactly when the reply has the line last written to its address. -/
def Report.Exact (report : Report) (past : List (Event cfg)) (reply : CachePacket cfg) : Prop :=
  report = .dataMatch reply.addr ↔ reply.wdata = writtenLine past reply.addr

theorem Scoreboard.write_eq_dataMatch_iff (scb : Scoreboard) (tr : CachePacket cfg) :
    scb.write tr = .dataMatch tr.addr ↔ tr.wdata = (scb.expMem tr.addr).getD 0#512 := by
  unfold write
  by_cases heq : tr.wdata = (scb.expMem tr.addr).getD 0#512
  · simp [heq]
  · simp [heq]

theorem Scoreboard.after_eq_new (past : List (Event cfg)) : Scoreboard.after past = .new := by
  induction past using List.reverseRecOn with
  | nil => rfl
  | append_singleton past event ih =>
      have hstep : Scoreboard.after (past ++ [event]) = ((Scoreboard.after past).step event).1 :=
        List.foldl_concat _ _ _ _
      rw [hstep, ih]
      cases event <;> rfl

/-- **A report is exact when the line last written is zero, and else only on a third line.** -/
theorem report_exact_iff (past : List (Event cfg)) (bus : MonitorBus cfg) (reply : CachePacket cfg)
    (report : Report) (hreport : (reply, report) ∈ reports past bus) :
    report.Exact past reply ↔
      writtenLine past reply.addr = 0#512 ∨
        (reply.wdata ≠ 0#512 ∧ reply.wdata ≠ writtenLine past reply.addr) := by
  obtain ⟨tr, -, heq⟩ := List.mem_map.mp hreport
  obtain ⟨rfl, rfl⟩ := Prod.mk.inj heq
  rw [Report.Exact, Scoreboard.write_eq_dataMatch_iff, Scoreboard.after_eq_new]
  change (tr.wdata = 0#512 ↔ tr.wdata = writtenLine past tr.addr) ↔ _
  by_cases hzero : writtenLine past tr.addr = 0#512
  · simp [hzero]
  · constructor
    · intro hexact
      refine .inr ⟨fun hline => ?_, fun hline => ?_⟩
      · exact hzero ((hexact.mp hline).symm.trans hline)
      · exact hzero (hline.symm.trans (hexact.mpr hline))
    · rintro (habs | ⟨hline, hwritten⟩)
      · exact absurd habs hzero
      · exact iff_of_false hline hwritten

def writeLine7 : Event .shipped := .drives ⟨.write, 0x40, 0, 7#512⟩

/-- Core 1 gets `line` for address 0x40. -/
def replyBus (line : CacheLine) : MonitorBus .shipped where
  l2ExitValid core := if core = 1 then .one else .zero
  l2ExitPacket _ := { L2ExitPacket.zero with cacheLine := line, targetAddr := 0x40 }
  arPacket := .zero
  arReady := false
  rPacket := ⟨0#512, false, false⟩
  rReady := rReady
  awPacket := .zero
  awReady := false
  wPacket := .zero
  wReady := false
  bPacket := ⟨false, false⟩
  bReady := bReady

theorem thirdLine_exact_iff :
    (Report.dataMismatch 0x40).Exact [writeLine7] ((replyBus 5#512).reply 1) ↔
      writtenLine [writeLine7] 0x40 = 0#512 ∨
        (5#512 ≠ 0#512 ∧ 5#512 ≠ writtenLine [writeLine7] 0x40) :=
  report_exact_iff [writeLine7] (replyBus 5#512) _ _ (by decide +kernel)

theorem written_line_mismatches :
    ¬∀ (cfg : Config) (past : List (Event cfg)) (bus : MonitorBus cfg) (reply : CachePacket cfg)
      (report : Report), (reply, report) ∈ reports past bus → report.Exact past reply := by
  intro hclaim
  have hexact := hclaim .shipped [writeLine7] (replyBus 7#512) ((replyBus 7#512).reply 1)
    (.dataMismatch 0x40) (by decide +kernel)
  exact absurd (hexact.mpr rfl) (by decide)

/-! ### What `note_write` is for -/

/-- The scoreboard, had each driven WRITE been noted. -/
def Scoreboard.noted (past : List (Event cfg)) : Scoreboard :=
  past.foldl (fun scb event => match event with
    | .drives req =>
        if req.reqType = .write then scb.noteWrite req.addr req.toEntryPacket.cacheLine else scb
    | .samples _ => scb) .new

theorem Scoreboard.noted_expMem (past : List (Event cfg)) (a : Addr) :
    (Scoreboard.noted past).expMem a = latestWrite past a := by
  induction past using List.reverseRecOn with
  | nil => rfl
  | append_singleton past event ih =>
      unfold Scoreboard.noted latestWrite at ih ⊢
      rw [List.foldl_concat, List.filterMap_append, List.getLast?_append]
      cases event with
      | samples bus => simpa [Event.writes] using ih
      | drives req =>
          by_cases hwrite : req.reqType = .write
          · by_cases haddr : req.addr = a
            · subst haddr
              simp [Event.writes, CachePacket.toEntryPacket, noteWrite, hwrite]
            · simpa [Event.writes, CachePacket.toEntryPacket, noteWrite, hwrite, haddr,
                Function.update_of_ne (Ne.symm haddr)] using ih
          · simpa [Event.writes, CachePacket.toEntryPacket, hwrite] using ih

theorem Scoreboard.noted_exact (past : List (Event cfg)) (reply : CachePacket cfg) :
    ((Scoreboard.noted past).write reply).Exact past reply := by
  rw [Report.Exact, write_eq_dataMatch_iff, noted_expMem]
  rfl

end MultiCoreL2Cache
