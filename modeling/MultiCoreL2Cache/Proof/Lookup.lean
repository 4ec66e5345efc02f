import MultiCoreL2Cache.Proof.Memories

/-!
# Looking a line up

`hit` compares what the tag memories present, a tag memory presents its entry only while it is
enabled, and what enables it is a hit. From the default enables every way presents zeros, nothing
hits, and nothing is enabled: the lookup settles at once, and finds no line whatever is stored. At the
width of the source that is right: no packet stored there is valid.
-/

namespace MultiCoreL2Cache

variable {cfg : Config} {width : Nat} {s : WideSystem cfg width} {d : Drive cfg}
  {tagX : BitVec width} {n : Nets cfg}

/-- Way `w` stores a valid entry with the tag of the request in the set of the request. -/
def HoldsLine (s : WideSystem cfg width) (d : Drive cfg) (w : cfg.Way) : Prop :=
  ∃ set : Fin cfg.numSets, set.val = (requestSet d.bare).toNat ∧
    (s.stored w set).valid = true ∧
      (s.stored w set).addr.l2Tag = d.l2EntryPacket.targetAddr.l2Tag

instance (s : WideSystem cfg width) (d : Drive cfg) (w : cfg.Way) : Decidable (HoldsLine s d w) :=
  inferInstanceAs (Decidable (∃ _, _))

/-- A request of an unstalled core with no DRAM response, evaluated from the default enables. -/
structure PlainLookup (s : WideSystem cfg width) (d : Drive cfg) : Prop where
  unstalled : stalled s.regs d.bare = false
  kind : d.l2EntryPacket.reqType ∈ [.read, .write, .upgrade, .evict]
  noRead : d.rPacket.rValid = false
  noWrite : d.bPacket.bValid = false
  readEn : s.nets.readEn = fun _ => false
  readMetaEn : s.nets.readMetaEn = fun _ => false

/-- The lookup settles, and then exactly the ways that hold the line hit. -/
def LookupExact (s : WideSystem cfg width) (d : Drive cfg) (tagX : BitVec width) : Prop :=
  (∃ nets, s.Settles ⟨d, tagX, nets⟩) ∧
    ∀ nets, s.Settles ⟨d, tagX, nets⟩ →
      ∀ w, hit (s.settledCycle ⟨d, tagX, nets⟩) w = true ↔ HoldsLine s d w

namespace WideSystem

theorem cycle_blind (hen : n.readMetaEn = fun _ => false) : (s.cycle d tagX n).Blind :=
  fun w => valid_of_not_enabled (congrFun hen w)

theorem eval_readMetaEn (hread : d.rPacket.rValid = false) (hen : n.readMetaEn = fun _ => false) :
    (s.eval d tagX n).readMetaEn = fun _ => false := by
  have hread' : (s.cycle d tagX n).rPacket.rValid = false := hread
  rw [eval, comb_readMetaEn, looksUp_of_blind (cycle_blind hen), hread']
  simp only [Bool.false_and, Bool.or_false]

end WideSystem

open WideSystem

namespace PlainLookup

theorem settles (h : PlainLookup s d) (tagX : BitVec width) :
    s.Settles ⟨d, tagX, s.eval d tagX s.nets⟩ := by
  refine s.settles_eval d tagX 0 (s.cycle_eval_eq d tagX ?_ h.readEn ?_)
  · exact looksUp_of_blind (cycle_blind h.readMetaEn)
  · rw [Function.iterate_zero, id, h.readMetaEn, h.noRead]
    simp only [Bool.false_and]

/-- No enable is ever raised on the way to where the lookup settles. -/
theorem hit_eq (h : PlainLookup s d) {nets : Nets cfg} (hsettles : s.Settles ⟨d, tagX, nets⟩) :
    hit (s.settledCycle ⟨d, tagX, nets⟩) = fun _ => false := by
  have hen : nets.readMetaEn = fun _ => false :=
    hsettles.settling.invariant (fun n => n.readMetaEn = fun _ => false) h.readMetaEn
      fun _ => eval_readMetaEn h.noRead
  exact hit_of_blind (cycle_blind hen)

theorem lookupExact_iff (h : PlainLookup s d) (tagX : BitVec width) :
    LookupExact s d tagX ↔ ∀ w, ¬HoldsLine s d w := by
  constructor
  · rintro ⟨-, hexact⟩ w hholds
    have hhit := (hexact _ (h.settles tagX) w).mpr hholds
    rw [h.hit_eq (h.settles tagX)] at hhit
    cases hhit
  · intro hnone
    refine ⟨⟨_, h.settles tagX⟩, fun nets hsettles w => ?_⟩
    rw [h.hit_eq hsettles]
    exact iff_of_false (by simp) (hnone w)

end PlainLookup

/-- At the width of the source no stored packet is valid. -/
theorem not_holdsLine_ofSystem (s : System cfg) (d : Drive cfg) (w : cfg.Way) :
    ¬HoldsLine (.ofSystem s) d w := by
  rintro ⟨set, -, hvalid, -⟩
  have hnone := ofBits_setWidth_valid (s.arrays.tags w set)
  exact absurd (hnone.symm.trans hvalid) (by decide)

/-- **A lookup of the source is exact.** -/
theorem lookup_exact (s : System cfg) (d : Drive cfg) (h : PlainLookup (.ofSystem s) d) :
    LookupExact (.ofSystem s) d d.tagX :=
  (h.lookupExact_iff d.tagX).mpr (not_holdsLine_ofSystem s d)

/-- All tag entries are written with ones, and the read addresses are left at set 3. -/
def onesStored : System .shipped where
  toMachine := { Machine.fresh .shipped with
    nets := { Nets.zero .shipped with readMetaAddr := fun _ => 3 } }
  arrays := ⟨fun _ _ => 7#512, fun _ _ => BitVec.allOnes _⟩

theorem onesStored_exact :
    LookupExact (.ofSystem onesStored) (.request .read 0x40 0) 0 :=
  lookup_exact onesStored (.request .read 0x40 0)
    { unstalled := by decide +kernel
      kind := by decide
      noRead := rfl
      noWrite := rfl
      readEn := rfl
      readMetaEn := rfl }

/-- **A lookup is exact only where there is nothing to find**, whatever the width. -/
theorem lookup_exact_iff (s : WideSystem cfg width) (d : Drive cfg) (tagX : BitVec width)
    (h : PlainLookup s d) : LookupExact s d tagX ↔ ∀ w, ¬HoldsLine s d w :=
  h.lookupExact_iff tagX

/-- Way 0 holds the line at 0x40. -/
def lineStored : WideSystem .shipped 40 where
  toMachine := .fresh _
  arrays :=
    { data := fun _ _ => 0#512
      tags := fun w set =>
        if w = 0 ∧ set.val = 1 then
          (MetaPacket.toBits (⟨true, false, 0b0001, .exclusive, 0x40⟩ : MetaPacket .shipped)).setWidth 40
        else 0 }

theorem lineStored_plain : PlainLookup lineStored (.request .read 0x40 0) where
  unstalled := by decide +kernel
  kind := by decide
  noRead := rfl
  noWrite := rfl
  readEn := rfl
  readMetaEn := rfl

theorem lineStored_exact_iff :
    LookupExact lineStored (.request .read 0x40 0) 0 ↔
      ∀ w, ¬HoldsLine lineStored (.request .read 0x40 0) w :=
  lookup_exact_iff _ _ _ lineStored_plain

end MultiCoreL2Cache
