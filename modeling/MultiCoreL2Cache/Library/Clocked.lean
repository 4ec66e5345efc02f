import Mathlib.Logic.Function.Basic

/-!
# Clocked machines

A synchronous machine takes one step in each clock cycle on the inputs of that cycle. A run is given
by its first state and the inputs of every cycle. What happened before a cycle is kept by a history:
a value that every step updates and that no step reads.
-/

namespace Clocked

variable {σ τ ι κ γ : Type*} (step : σ → ι → σ)

def run (s : σ) (input : Nat → ι) : Nat → σ
  | 0 => s
  | k + 1 => step (run s input k) (input k)

theorem run_succ (s : σ) (input : Nat → ι) (k : Nat) :
    run step s input (k + 1) = step (run step s input k) (input k) := rfl

def cons (i : ι) (input : Nat → ι) : Nat → ι
  | 0 => i
  | k + 1 => input k

theorem run_cons (s : σ) (i : ι) (input : Nat → ι) (k : Nat) :
    run step s (cons i input) (k + 1) = run step (step s i) input k := by
  induction k with
  | zero => rfl
  | succ k ih =>
      rw [run_succ, ih]
      rfl

def history (record : γ → σ → ι → γ) (g : γ) (s : σ) (input : Nat → ι) : Nat → γ
  | 0 => g
  | k + 1 => record (history record g s input k) (run step s input k) (input k)

variable {step} {s : σ} {input : Nat → ι}

section History

variable (record : γ → σ → ι → γ) (g : γ)

/-- A property of the state and its history that every legal step keeps holds at the end of every
run of legal steps. -/
theorem history_invariant (P : σ → γ → Prop) (Legal : σ → γ → ι → Prop) (hinit : P s g)
    (hstep : ∀ s g i, P s g → Legal s g i → P (step s i) (record g s i)) {k : Nat}
    (hlegal : ∀ j < k, Legal (run step s input j) (history step record g s input j) (input j)) :
    P (run step s input k) (history step record g s input k) := by
  induction k with
  | zero => exact hinit
  | succ k ih =>
      have hbefore := ih fun j hj => hlegal j (Nat.lt_succ_of_lt hj)
      exact hstep _ _ _ hbefore (hlegal k (Nat.lt_succ_self k))

end History

theorem run_invariant (P : σ → Prop) (Legal : σ → ι → Prop) (hinit : P s)
    (hstep : ∀ s i, P s → Legal s i → P (step s i)) {k : Nat}
    (hlegal : ∀ j < k, Legal (run step s input j) (input j)) : P (run step s input k) :=
  history_invariant (fun _ _ _ => ()) () (fun s (_ : Unit) => P s) (fun s _ i => Legal s i) hinit
    (fun s _ i => hstep s i) hlegal

/-- What no step from cycle `b` on changes is at cycle `k` what it was at cycle `b`. -/
theorem run_keeps {α : Type*} (f : σ → α) {b k : Nat} (hle : b ≤ k)
    (hkeep : ∀ j, b ≤ j → j < k → f (run step s input (j + 1)) = f (run step s input j)) :
    f (run step s input k) = f (run step s input b) := by
  induction hle with
  | refl => rfl
  | step hle ih =>
      rw [hkeep _ hle (Nat.lt_succ_self _)]
      exact ih fun j hbj hjk => hkeep j hbj (Nat.lt_succ_of_lt hjk)

/-- Two machines that start related and whose steps keep the relation stay related. -/
theorem run_related {step' : τ → κ → τ} {R : σ → τ → Prop} {t : τ} {input' : Nat → κ}
    (hinit : R s t) (hstep : ∀ k s t, R s t → R (step s (input k)) (step' t (input' k))) (k : Nat) :
    R (run step s input k) (run step' t input' k) := by
  induction k with
  | zero => exact hinit
  | succ k ih => exact hstep k _ _ ih

/-! ### What holds as long as a condition does -/

section Always

variable {P C : Nat → Prop}

/-- A property that each step keeps under its condition, and only under it, holds for `m` steps
exactly when the first `m` conditions do. -/
theorem forall_le_iff {m : Nat} (hinit : P 0) (hstep : ∀ k < m, P k → (P (k + 1) ↔ C k)) :
    (∀ k ≤ m, P k) ↔ ∀ k < m, C k := by
  constructor
  · intro hall k hk
    exact (hstep k hk (hall k (Nat.le_of_lt hk))).mp (hall (k + 1) hk)
  · intro hconds k hk
    induction k with
    | zero => exact hinit
    | succ k ih => exact (hstep k hk (ih (Nat.le_of_succ_le hk))).mpr (hconds k hk)

theorem forall_iff (hinit : P 0) (hstep : ∀ k, P k → (P (k + 1) ↔ C k)) :
    (∀ k, P k) ↔ ∀ k, C k := by
  constructor
  · intro hall k
    exact (hstep k (hall k)).mp (hall (k + 1))
  · intro hconds k
    exact (forall_le_iff hinit fun j _ => hstep j).mpr (fun j _ => hconds j) k (Nat.le_refl k)

/-- What each step from `b` on keeps still holds at `k`. -/
theorem persists {b k : Nat} (hle : b ≤ k) (hb : P b)
    (hstep : ∀ j, b ≤ j → j < k → P j → P (j + 1)) : P k := by
  induction hle with
  | refl => exact hb
  | @step k hle ih =>
      have hbefore := ih fun j hbj hjk => hstep j hbj (Nat.lt_succ_of_lt hjk)
      exact hstep k hle (Nat.lt_succ_self k) hbefore

/-- One side starts only on a sign of the other, and the other gives a sign only after the first has
started. Then neither ever does. -/
theorem never_of_circular {Q : Nat → Prop} (hinit : ¬P 0) (hstart : ∀ k, P (k + 1) → P k ∨ Q k)
    (hsign : ∀ k, Q k → ∃ j ≤ k, P j) (k : Nat) : ¬P k ∧ ¬Q k := by
  have hnever : ∀ k, ∀ j ≤ k, ¬P j := by
    intro k
    induction k with
    | zero =>
        intro j hj
        rw [Nat.le_zero.mp hj]
        exact hinit
    | succ k ih =>
        intro j hj hstarted
        rcases Nat.lt_or_eq_of_le hj with hlt | rfl
        · exact ih j (Nat.lt_succ_iff.mp hlt) hstarted
        · rcases hstart k hstarted with hbefore | hgiven
          · exact ih k (Nat.le_refl k) hbefore
          · obtain ⟨i, hi, hstarted'⟩ := hsign k hgiven
            exact ih i hi hstarted'
  refine ⟨hnever k k (Nat.le_refl k), fun hgiven => ?_⟩
  obtain ⟨j, hj, hstarted⟩ := hsign k hgiven
  exact hnever k j hj hstarted

end Always

/-! ### Counts that run out -/

section Eventually

variable {f : Nat → Nat} {b : Nat}

theorem le_of_never_rises (hkeep : ∀ j, b ≤ j → f (j + 1) ≤ f j) {i j : Nat} (hbi : b ≤ i)
    (hij : i ≤ j) : f j ≤ f i := by
  induction hij with
  | refl => exact Nat.le_refl _
  | @step j hij ih => exact Nat.le_trans (hkeep j (Nat.le_trans hbi hij)) ih

/-- A count that never rises, and as long as it is positive falls again unless it is zero by then, is
zero in the end. -/
theorem eventually_zero (hkeep : ∀ j, b ≤ j → f (j + 1) ≤ f j)
    (hfall : ∀ j, b ≤ j → 0 < f j → ∃ i, j ≤ i ∧ (0 < f i → f (i + 1) < f i)) :
    ∃ k, b ≤ k ∧ ∀ j, k ≤ j → f j = 0 := by
  induction hn : f b using Nat.strongRecOn generalizing b with
  | ind n ih =>
      subst hn
      by_cases hzero : f b = 0
      · refine ⟨b, Nat.le_refl b, fun j hj => ?_⟩
        exact Nat.le_zero.mp (hzero ▸ le_of_never_rises hkeep (Nat.le_refl b) hj)
      · obtain ⟨i, hbi, hlt⟩ := hfall b (Nat.le_refl b) (Nat.pos_of_ne_zero hzero)
        rcases Nat.eq_zero_or_pos (f i) with hgone | hpos
        · refine ⟨i, hbi, fun j hj => ?_⟩
          exact Nat.le_zero.mp (hgone ▸ le_of_never_rises hkeep hbi hj)
        · have hless : f (i + 1) < f b :=
            Nat.lt_of_lt_of_le (hlt hpos) (le_of_never_rises hkeep (Nat.le_refl b) hbi)
          have hlater : b ≤ i + 1 := Nat.le_succ_of_le hbi
          obtain ⟨k, hk, hall⟩ := ih (f (i + 1)) hless
            (fun j hj => hkeep j (Nat.le_trans hlater hj))
            (fun j hj => hfall j (Nat.le_trans hlater hj)) rfl
          exact ⟨k, Nat.le_trans hlater hk, hall⟩

/-- A value that every ready cycle loads, and no other changes, is there from the first of them on. -/
theorem eventually_loaded {α : Type*} {v : Nat → α} {ready : Nat → Bool} {x : α}
    (hload : ∀ j, b ≤ j → v (j + 1) = if ready j then x else v j)
    (hready : ∃ j, b ≤ j ∧ ready j = true) : ∃ k, b ≤ k ∧ ∀ j, k ≤ j → v j = x := by
  obtain ⟨i, hi, hnow⟩ := hready
  refine ⟨i + 1, Nat.le_succ_of_le hi, fun j hj => ?_⟩
  refine persists (P := fun j => v j = x) hj ?_ fun l hl _ hl' => ?_
  · rw [hload i hi, if_pos hnow]
  · rw [hload l (Nat.le_trans (Nat.le_succ_of_le hi) hl), hl']
    exact ite_self x

end Eventually

end Clocked
