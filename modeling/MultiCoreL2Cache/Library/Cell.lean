import Mathlib.Logic.Function.Basic

/-!
# Cells that are written now and then

A cell takes the value that a step writes and keeps its value in the other steps. What it holds is
the value of the latest write, or the value it started from when there was none.
-/

namespace Cell

variable {α : Type*} {write : Nat → Option α} {init : α} {b k : Nat} {value value' : α}

/-- `value` is what the steps from `b` to before `k` leave in a cell that starts from `init`. -/
inductive Latest (write : Nat → Option α) (init : α) (b k : Nat) : α → Prop
  | written {j : Nat} {value : α} (hbj : b ≤ j) (hjk : j < k) (hwrite : write j = some value)
      (hlast : ∀ l, j < l → l < k → write l = none) : Latest write init b k value
  | untouched (hnone : ∀ j, b ≤ j → j < k → write j = none) : Latest write init b k init

theorem Latest.unique (h : Latest write init b k value) (h' : Latest write init b k value') :
    value = value' := by
  cases h with
  | untouched hnone =>
      cases h' with
      | untouched _ => rfl
      | written hbj hjk hwrite _ =>
          rw [hnone _ hbj hjk] at hwrite
          cases hwrite
  | @written j _ hbj hjk hwrite hlast =>
      cases h' with
      | untouched hnone =>
          rw [hnone _ hbj hjk] at hwrite
          cases hwrite
      | @written j' _ hbj' hjk' hwrite' hlast' =>
          rcases Nat.lt_trichotomy j j' with hlt | rfl | hgt
          · rw [hlast _ hlt hjk'] at hwrite'
            cases hwrite'
          · exact Option.some.inj (hwrite.symm.trans hwrite')
          · rw [hlast' _ hgt hjk] at hwrite
            cases hwrite

theorem Latest.step (h : Latest write init b k value) (hbk : b ≤ k) :
    Latest write init b (k + 1) ((write k).getD value) := by
  cases hwrite : write k with
  | some new => exact .written hbk (Nat.lt_succ_self k) hwrite fun l hkl hlk => by omega
  | none =>
      have hupTo : ∀ l, l < k + 1 → l < k ∨ l = k := fun l hl => Nat.lt_succ_iff_lt_or_eq.mp hl
      cases h with
      | untouched hnone =>
          refine .untouched fun j hbj hjk => ?_
          rcases hupTo j hjk with hlt | rfl
          · exact hnone j hbj hlt
          · exact hwrite
      | written hbj hjk hvalue hlast =>
          refine .written hbj (Nat.lt_succ_of_lt hjk) hvalue fun l hjl hlk => ?_
          rcases hupTo l hlk with hlt | rfl
          · exact hlast l hjl hlt
          · exact hwrite

/-- A cell that takes every write and keeps its value otherwise holds the latest one. -/
theorem latest_of_steps {x : Nat → α} (hbk : b ≤ k) (hinit : x b = init)
    (hstep : ∀ j, b ≤ j → j < k → x (j + 1) = (write j).getD (x j)) :
    Latest write init b k (x k) := by
  induction hbk with
  | refl =>
      rw [hinit]
      exact .untouched fun j hbj hjk => by omega
  | @step k hbk ih =>
      rw [hstep k hbk (Nat.lt_succ_self k)]
      exact (ih fun j hbj hjk => hstep j hbj (Nat.lt_succ_of_lt hjk)).step hbk

end Cell
