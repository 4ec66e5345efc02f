import Mathlib.Data.BitVec

/-!
# Sets as bit vectors

A vector of `n` bits as the set of the indices of its ones.
-/

namespace BitSet

variable {n : Nat}

def Mem (v : BitVec n) (i : Fin n) : Prop := v.getLsbD i = true

instance (v : BitVec n) (i : Fin n) : Decidable (Mem v i) := inferInstanceAs (Decidable (_ = true))

theorem eq_of_mem_iff {v w : BitVec n} (h : ∀ i, Mem v i ↔ Mem w i) : v = w := by
  apply BitVec.eq_of_getLsbD_eq
  intro i hi
  exact Bool.eq_iff_iff.mpr (h ⟨i, hi⟩)

@[simp]
theorem mem_twoPow (i j : Fin n) : Mem (BitVec.twoPow n i) j ↔ j = i := by
  unfold Mem
  rw [BitVec.getLsbD_twoPow]
  simp [Fin.ext_iff, eq_comm]

@[simp]
theorem mem_or (v w : BitVec n) (i : Fin n) : Mem (v ||| w) i ↔ Mem v i ∨ Mem w i := by
  simp [Mem]

@[simp]
theorem not_mem_zero (i : Fin n) : ¬Mem (0 : BitVec n) i := by
  simp [Mem]

theorem eq_twoPow_iff {v : BitVec n} {i : Fin n} :
    v = BitVec.twoPow n i ↔ Mem v i ∧ ∀ j, Mem v j → j = i := by
  constructor
  · rintro rfl
    simp
  · rintro ⟨hmem, honly⟩
    refine eq_of_mem_iff fun j => ?_
    rw [mem_twoPow]
    exact ⟨honly j, fun heq => heq ▸ hmem⟩

/-- Adding an element leaves a singleton exactly where there was no other element. -/
theorem or_twoPow_eq_iff {v : BitVec n} {i : Fin n} :
    v ||| BitVec.twoPow n i = BitVec.twoPow n i ↔ ∀ j, Mem v j → j = i := by
  rw [eq_twoPow_iff]
  constructor
  · rintro ⟨-, honly⟩ j hmem
    exact honly j ((mem_or _ _ _).mpr (.inl hmem))
  · intro honly
    refine ⟨by simp, fun j hmem => ?_⟩
    rcases (mem_or _ _ _).mp hmem with hv | hsingle
    · exact honly j hv
    · exact (mem_twoPow i j).mp hsingle

theorem ne_zero_of_mem {v : BitVec n} {i : Fin n} (h : Mem v i) : v ≠ 0 := by
  rintro rfl
  exact not_mem_zero i h

end BitSet
