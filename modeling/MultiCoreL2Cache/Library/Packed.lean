import Mathlib.Data.Fintype.Basic
import Mathlib.Data.List.FinRange
import Mathlib.Logic.Function.Basic

/-!
# Packed arrays and search loops

A hardware index is a number that may lie outside the array it selects from. Reading there gives no
value and assigning there does nothing; `select?` and `assign` are those two operations. `lastIndex`
is the loop that remembers the last index at which a condition held.
-/

namespace Packed

variable {n : Nat} {α : Type*}

def select? (a : Fin n → α) (i : Nat) : Option α :=
  if h : i < n then some (a ⟨i, h⟩) else none

def assign (a : Fin n → α) (i : Nat) (f : α → α) : Fin n → α :=
  if h : i < n then Function.update a ⟨i, h⟩ (f (a ⟨i, h⟩)) else a

theorem select?_of_lt (a : Fin n → α) {i : Nat} (h : i < n) : select? a i = some (a ⟨i, h⟩) :=
  dif_pos h

theorem select?_of_not_lt (a : Fin n → α) {i : Nat} (h : ¬i < n) : select? a i = none :=
  dif_neg h

theorem assign_apply (a : Fin n → α) (i : Nat) (f : α → α) (j : Fin n) :
    assign a i f j = if j.val = i then f (a j) else a j := by
  unfold assign
  split
  · rename_i h
    by_cases hj : j.val = i
    · have heq : j = ⟨i, h⟩ := Fin.ext hj
      subst heq
      simp
    · rw [Function.update_of_ne (fun heq => hj (congrArg Fin.val heq)), if_neg hj]
  · rename_i h
    rw [if_neg]
    intro heq
    exact h (heq ▸ j.isLt)

theorem select?_assign (a : Fin n → α) (i j : Nat) (f : α → α) :
    select? (assign a i f) j = if j = i then (select? a j).map f else select? a j := by
  unfold select?
  split
  · rw [assign_apply]
    split <;> simp
  · split <;> rfl

/-- `for (int i = 0; i < n; i++) if (p[i]) found = i;` -/
def lastIndex (p : Fin n → Bool) : Option (Fin n) :=
  (List.finRange n).foldl (fun found i => if p i then some i else found) none

private theorem foldl_last_eq_some {p : Fin n → Bool} {l : List (Fin n)} {init : Option (Fin n)}
    {i : Fin n} (h : l.foldl (fun found i => if p i then some i else found) init = some i) :
    init = some i ∨ p i = true := by
  induction l generalizing init with
  | nil => exact Or.inl h
  | cons x xs ih =>
      rcases ih h with hinit | hp
      · simp only at hinit
        by_cases hx : p x
        · rw [if_pos hx] at hinit
          exact Or.inr (Option.some.inj hinit ▸ hx)
        · rw [if_neg hx] at hinit
          exact Or.inl hinit
      · exact Or.inr hp

private theorem foldl_last_isSome {p : Fin n → Bool} {l : List (Fin n)} {init : Option (Fin n)}
    (h : init.isSome ∨ ∃ i ∈ l, p i = true) :
    (l.foldl (fun found i => if p i then some i else found) init).isSome := by
  induction l generalizing init with
  | nil => simpa using h
  | cons x xs ih =>
      apply ih
      by_cases hx : p x
      · simp [hx]
      · rcases h with hinit | ⟨i, hmem, hp⟩
        · simp [hx, hinit]
        · rcases List.mem_cons.mp hmem with heq | hmem
          · exact absurd (heq ▸ hp) hx
          · exact Or.inr ⟨i, hmem, hp⟩

theorem lastIndex_spec {p : Fin n → Bool} {i : Fin n} (h : lastIndex p = some i) : p i = true := by
  rcases foldl_last_eq_some h with hnone | hp
  · cases hnone
  · exact hp

theorem lastIndex_isSome_iff {p : Fin n → Bool} :
    (lastIndex p).isSome ↔ ∃ i, p i = true := by
  constructor
  · intro h
    obtain ⟨i, hi⟩ := Option.isSome_iff_exists.mp h
    exact ⟨i, lastIndex_spec hi⟩
  · rintro ⟨i, hp⟩
    exact foldl_last_isSome (Or.inr ⟨i, List.mem_finRange i, hp⟩)

theorem lastIndex_eq_none_iff {p : Fin n → Bool} : lastIndex p = none ↔ ∀ i, p i = false := by
  rw [← Option.not_isSome_iff_eq_none, lastIndex_isSome_iff]
  simp

private theorem foldl_last_mem {p : Fin n → Bool} {l : List (Fin n)} {init : Option (Fin n)}
    {i : Fin n} (h : l.foldl (fun found i => if p i then some i else found) init = some i) :
    init = some i ∨ i ∈ l := by
  induction l generalizing init with
  | nil => exact .inl h
  | cons x xs ih =>
      rcases ih h with hinit | hmem
      · by_cases hx : p x
        · simp only [hx, if_true] at hinit
          exact .inr (Option.some.inj hinit ▸ List.mem_cons_self)
        · simp only [hx, Bool.false_eq_true, if_false] at hinit
          exact .inl hinit
      · exact .inr (List.mem_cons_of_mem x hmem)

private theorem foldl_last_le {p : Fin n → Bool} {l : List (Fin n)} (hsorted : l.Pairwise (· < ·))
    {init : Option (Fin n)} {i j : Fin n}
    (h : l.foldl (fun found i => if p i then some i else found) init = some i) (hj : j ∈ l)
    (hp : p j = true) : j ≤ i := by
  induction l generalizing init with
  | nil => cases hj
  | cons x xs ih =>
      obtain ⟨hfirst, hrest⟩ := List.pairwise_cons.mp hsorted
      rw [List.foldl_cons] at h
      rcases List.mem_cons.mp hj with rfl | hmem
      · rcases foldl_last_mem h with hinit | hlater
        · rw [if_pos hp] at hinit
          exact le_of_eq (Option.some.inj hinit)
        · exact le_of_lt (hfirst i hlater)
      · exact ih hrest h hmem

/-- The loop ends with the highest index. -/
theorem le_lastIndex {p : Fin n → Bool} {i j : Fin n} (h : lastIndex p = some i)
    (hp : p j = true) : j ≤ i :=
  foldl_last_le (List.pairwise_lt_finRange n) h (List.mem_finRange j) hp

theorem lastIndex_eq_some_of_unique {p : Fin n → Bool} {i : Fin n} (hp : p i = true)
    (huniq : ∀ j, p j = true → j = i) : lastIndex p = some i := by
  obtain ⟨j, hj⟩ := Option.isSome_iff_exists.mp (lastIndex_isSome_iff.mpr ⟨i, hp⟩)
  rw [hj, huniq j (lastIndex_spec hj)]

end Packed
