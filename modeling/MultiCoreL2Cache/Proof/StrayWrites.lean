import MultiCoreL2Cache.Proof.Lookup

/-!
# Requests for lines that are not there

UPGRADE and EVICT take a hit for granted. Without one their way is 0, and its tag memory is written all
the same, in whatever set was latched for it last. The bus has no valid bit, so an idle cycle is such
a request.
-/

namespace MultiCoreL2Cache

variable {cfg : Config} {width : Nat} {s : WideSystem cfg width} {i : WideInput cfg width}

/-- An UPGRADE or EVICT, in a cycle without a DRAM response, of a line that no way holds. -/
structure AbsentRequest (s : WideSystem cfg width) (i : WideInput cfg width) : Prop
    extends QuietCycle s i where
  kind : i.drive.l2EntryPacket.reqType = .upgrade ∨ i.drive.l2EntryPacket.reqType = .evict
  absent : ∀ w, ¬HoldsLine s i.drive w

/-- The clock edge changes nothing in the memories. -/
structure Intact (s : WideSystem cfg width) (i : WideInput cfg width) : Prop where
  data : ∀ w set, (s.step i).arrays.data w set = s.arrays.data w set
  tags : ∀ w set, (s.step i).arrays.tags w set = s.arrays.tags w set

/-- What nothing drives is already in way 0, in the set last latched for it. -/
def ZeroWayRewritten (s : WideSystem cfg width) (i : WideInput cfg width) : Prop :=
  ∀ set : Fin cfg.numSets, set.val = (s.nets.writeMetaAddr 0).toNat →
    tagWord width i.drive.toUndriven 0 = s.arrays.tags 0 set

namespace AbsentRequest

theorem not_looksUp (h : AbsentRequest s i) : looksUp s.regs (s.settledCycle i) = false := by
  have hkind : (s.settledCycle i).l2EntryPacket = i.drive.l2EntryPacket := rfl
  rcases h.kind with hupgrade | hevict
  · simp [looksUp, readOrWrite, hkind, hupgrade]
  · simp [looksUp, readOrWrite, hkind, hevict]

theorem hitWay_eq (h : AbsentRequest s i) : hitWay (s.settledCycle i) = 0 :=
  hitWay_of_blind (h.settles.blind h.noRead h.not_looksUp)

theorem writesMeta_iff (h : AbsentRequest s i) :
    writesMeta s.regs (s.settledCycle i) = true ↔ stalled s.regs i.drive.bare = false := by
  have hstalled : stalled s.regs (s.settledCycle i) = stalled s.regs i.drive.bare := rfl
  have hkind : (s.settledCycle i).l2EntryPacket = i.drive.l2EntryPacket := rfl
  unfold writesMeta
  rw [hstalled, hkind]
  rcases h.kind with hupgrade | hevict
  · simp [hupgrade]
  · simp [hevict]

theorem tagSet_eq (h : AbsentRequest s i) (w : cfg.Way) :
    tagSet s.regs (s.settledCycle i) s.nets w = s.nets.writeMetaAddr w :=
  tagSet_of_not_rValid h.noRead

theorem data_kept (h : AbsentRequest s i) (w : cfg.Way) (set : Fin cfg.numSets) :
    (s.step i).arrays.data w set = s.arrays.data w set := by
  refine (data_kept_iff h.settles h.running).mpr (fun w set hwrites => ?_) w set
  have hread : i.drive.rPacket.rValid = true := hwrites.1
  rw [h.noRead] at hread
  cases hread

theorem tagsRewritten_iff (h : AbsentRequest s i) :
    TagsRewritten s i ↔ stalled s.regs i.drive.bare = true ∨ ZeroWayRewritten s i := by
  unfold TagsRewritten TagWrites ZeroWayRewritten
  simp only [h.writesMeta_iff, h.hitWay_eq, h.tagSet_eq]
  cases stalled s.regs i.drive.bare with
  | true => simp
  | false =>
      simp only [Bool.false_eq_true, false_or, true_and]
      constructor
      · intro hsame set hset
        exact hsame 0 set ⟨rfl, hset⟩
      · rintro hsame w set ⟨rfl, hset⟩
        exact hsame set hset

end AbsentRequest

/-- **A request for an absent line leaves the memories alone only where way 0 stores what it
writes.** -/
theorem absent_request_intact_iff (s : WideSystem cfg width) (i : WideInput cfg width)
    (h : AbsentRequest s i) :
    Intact s i ↔ stalled s.regs i.drive.bare = true ∨ ZeroWayRewritten s i := by
  rw [← h.tagsRewritten_iff, ← tags_kept_iff h.settles h.running]
  exact ⟨fun hintact => hintact.tags, fun htags => ⟨h.data_kept, htags⟩⟩

/-- A READ of 0x40 is answered, so that a refill latches set 1 for way 0, and a reset follows. -/
def refillThenReset : Nat → Drive .shipped
  | 0 => .request .read 0x40 1
  | 1 => .response _ 7#512
  | 2 => { Drive.idle .shipped with reset := true }
  | _ + 3 => .idle _

def idleState : System .shipped := (System.fresh .shipped).run refillThenReset 3

/-- The bus is idle, and `write_meta` happens not to be zero. -/
def straySignal : Drive .shipped :=
  { Drive.idle .shipped with writeMeta := fun _ => ⟨false, true, 0, .invalid, 0x40⟩ }

def strayIdle : WideInput .shipped Config.shipped.metaWidth :=
  WideSystem.ofDrive straySignal (idleState.settled straySignal)

theorem strayIdle_absent : AbsentRequest (.ofSystem idleState) strayIdle where
  toQuietCycle := .ofSystem _ _ rfl rfl rfl
  kind := .inl rfl
  absent := not_holdsLine_ofSystem _ _

theorem strayIdle_intact_iff :
    Intact (.ofSystem idleState) strayIdle ↔
      stalled idleState.regs strayIdle.drive.bare = true ∨
        ZeroWayRewritten (.ofSystem idleState) strayIdle :=
  absent_request_intact_iff _ _ strayIdle_absent

theorem idle_bus_writes :
    ¬∀ (cfg : Config) (width : Nat) (s : WideSystem cfg width) (i : WideInput cfg width),
      AbsentRequest s i → Intact s i := by
  intro hclaim
  have hintact := hclaim .shipped _ _ strayIdle strayIdle_absent
  exact absurd (hintact.tags 0 ⟨1, by decide⟩) (by decide +kernel)

end MultiCoreL2Cache
