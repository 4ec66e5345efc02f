import MultiCoreL2Cache.Proof.CombEffects

/-!
# The slots of the MSHR array

A response clears the valid bit of the slot at `wait_idx`, an allocation fills the slot at `free_idx`,
and no other slot changes.
-/

namespace MultiCoreL2Cache

open Packed

variable {cfg : Config} {r : Regs cfg} {c : Cycle cfg} {n : Nets cfg} {i : Fin cfg.numMshrs}

/-! ### Selecting an entry -/

theorem mshrAt_of_lt (mshrs : Fin cfg.numMshrs → Mshr cfg) {idx : BitVec 3}
    (h : idx.toNat < cfg.numMshrs) : mshrAt mshrs idx = mshrs ⟨idx.toNat, h⟩ := by
  rw [mshrAt, select?_of_lt _ h]
  rfl

theorem mshrAt_of_not_lt (mshrs : Fin cfg.numMshrs → Mshr cfg) {idx : BitVec 3}
    (h : ¬idx.toNat < cfg.numMshrs) : mshrAt mshrs idx = .zero cfg := by
  rw [mshrAt, select?_of_not_lt _ h]
  rfl

theorem lt_of_mshrAt_valid {mshrs : Fin cfg.numMshrs → Mshr cfg} {idx : BitVec 3}
    (h : (mshrAt mshrs idx).valid = true) : idx.toNat < cfg.numMshrs := by
  by_contra hout
  rw [mshrAt_of_not_lt _ hout] at h
  cases h

theorem mshrAt_assign_of_ne (mshrs : Fin cfg.numMshrs → Mshr cfg) (f : Mshr cfg → Mshr cfg)
    {idx : BitVec 3} {k : Nat} (h : idx.toNat ≠ k) :
    mshrAt (assign mshrs k f) idx = mshrAt mshrs idx := by
  rw [mshrAt, select?_assign, if_neg h]
  rfl

/-! ### What a cycle changes -/

/-- A miss gets an MSHR if it finds none with its address, in this cycle or before, and the slot at
`free_idx` is not in use. -/
theorem missAllocates_eq_true {exists' : Bool} :
    missAllocates r c exists' = true ↔
      misses r c = true ∧ (exists' = false ∧ mshrMatch r c = false) ∧
        (mshrAt r.mshrs r.freeIdx).valid = false := by
  unfold missAllocates
  rw [Bool.and_eq_true, Bool.and_eq_true, Bool.not_eq_true', Bool.not_eq_true',
    Bool.or_eq_false_iff, and_assoc]

theorem retiredMshrs_of_ne
    (h : (c.rPacket.rValid || c.bPacket.bValid) = true → i.val ≠ r.waitIdx.toNat) :
    retiredMshrs r c i = r.mshrs i := by
  unfold retiredMshrs
  by_cases hresp : (c.rPacket.rValid || c.bPacket.bValid) = true
  · rw [if_pos hresp, retire, assign_apply, if_neg (h hresp)]
  · rw [if_neg hresp]

theorem retiredMshrs_self (hresp : (c.rPacket.rValid || c.bPacket.bValid) = true)
    (hi : i.val = r.waitIdx.toNat) : retiredMshrs r c i = { r.mshrs i with valid := false } := by
  rw [retiredMshrs, if_pos hresp, retire, assign_apply, if_pos hi]

theorem retiredMshrs_valid_iff (i : Fin cfg.numMshrs) :
    (retiredMshrs r c i).valid = true ↔
      (r.mshrs i).valid = true ∧
        ((c.rPacket.rValid || c.bPacket.bValid) = true → i.val ≠ r.waitIdx.toNat) := by
  by_cases hhead : (c.rPacket.rValid || c.bPacket.bValid) = true ∧ i.val = r.waitIdx.toNat
  · rw [retiredMshrs_self hhead.1 hhead.2]
    exact iff_of_false (by simp) fun h => h.2 hhead.1 hhead.2
  · have hne : (c.rPacket.rValid || c.bPacket.bValid) = true → i.val ≠ r.waitIdx.toNat :=
      fun hresp hi => hhead ⟨hresp, hi⟩
    rw [retiredMshrs_of_ne hne, and_iff_left hne]

theorem retiredMshrs_addr (i : Fin cfg.numMshrs) :
    (retiredMshrs r c i).addr = (r.mshrs i).addr := by
  unfold retiredMshrs retire
  split
  · rw [assign_apply]
    split <;> rfl
  · rfl

theorem dramMshrs_of_ne (hi : i.val ≠ r.freeIdx.toNat) :
    dramMshrs r c i = retiredMshrs r c i := by
  unfold dramMshrs
  split
  · rw [assign_apply, if_neg hi]
  · rfl

/-- An allocation changes no other slot than the one at `free_idx`. -/
theorem comb_mshrs_of_ne
    (h : (missAllocates r c n.mshrExists || victimAllocates r c) = true →
      i.val ≠ r.freeIdx.toNat) : (comb r c n).next.mshrs i = retiredMshrs r c i := by
  rw [comb_mshrs]
  by_cases hmiss : missAllocates r c n.mshrExists = true
  · have hi := h (by simp [hmiss])
    rw [if_pos hmiss, assign_apply, if_neg hi, dramMshrs_of_ne hi]
  · rw [if_neg hmiss]
    by_cases hvictim : victimAllocates r c = true
    · exact dramMshrs_of_ne (h (by simp [hvictim]))
    · rw [dramMshrs, if_neg hvictim]

/-- A property of every entry that the three ways to change one keep. -/
theorem comb_mshrs_forall (P : Mshr cfg → Prop) (hold : ∀ i, P (r.mshrs i))
    (hretire : ∀ entry, P entry → P { entry with valid := false })
    (hvictim : victimAllocates r c = true → P (victimEntry r c))
    (hmiss : missAllocates r c n.mshrExists = true → ∀ entry, P entry → P (missEntry c entry))
    (i : Fin cfg.numMshrs) : P ((comb r c n).next.mshrs i) := by
  have hassign : ∀ {mshrs : Fin cfg.numMshrs → Mshr cfg} {k : Nat} {f : Mshr cfg → Mshr cfg},
      (∀ i, P (mshrs i)) → (∀ entry, P entry → P (f entry)) → ∀ i, P (assign mshrs k f i) := by
    intro mshrs k f hP hf i
    rw [assign_apply]
    split
    · exact hf _ (hP i)
    · exact hP i
  have hretired : ∀ i, P (retiredMshrs r c i) := by
    unfold retiredMshrs
    split
    · exact hassign hold hretire
    · exact hold
  have hdram : ∀ i, P (dramMshrs r c i) := by
    unfold dramMshrs
    split
    · rename_i hallocates
      exact hassign hretired fun _ _ => hvictim hallocates
    · exact hretired
  rw [comb_mshrs]
  split
  · rename_i hallocates
    exact hassign hdram (hmiss hallocates) i
  · exact hdram i

end MultiCoreL2Cache
