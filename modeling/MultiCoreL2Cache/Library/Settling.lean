import Mathlib.Logic.Function.Iterate

/-!
# Evaluating until nothing changes

A block of combinational logic with a loop through it is evaluated again for as long as its values
change. Nothing says that it stops. Where it does, the value it stops at is determined by the value it
starts from, and has every property that holds at the start and that an evaluation keeps.
-/

namespace Settling

variable {α β : Type*} {eval : α → α} {start stop stop' : α}

/-- `stop` is reached by evaluations and a further one does not change it. -/
def Settles (eval : α → α) (start stop : α) : Prop :=
  (∃ k, stop = eval^[k] start) ∧ eval stop = stop

theorem settles_of_repeats (k : Nat) (h : eval (eval^[k] start) = eval^[k] start) :
    Settles eval start (eval^[k] start) :=
  ⟨⟨k, rfl⟩, h⟩

/-- From the evaluation that settles on, all have the same value. -/
theorem Settles.iterate_eq (h : Settles eval start stop) :
    ∃ k, ∀ m, k ≤ m → eval^[m] start = stop := by
  obtain ⟨⟨k, rfl⟩, hfixed⟩ := h
  refine ⟨k, fun m hle => ?_⟩
  obtain ⟨d, rfl⟩ := Nat.exists_eq_add_of_le' hle
  rw [Function.iterate_add_apply]
  exact Function.iterate_fixed hfixed d

/-- Where a value settles within `k` evaluations it has settled after any larger number of them. -/
theorem settles_of_le {k m : Nat} (h : Settles eval start (eval^[k] start)) (hle : k ≤ m) :
    Settles eval start (eval^[m] start) := by
  obtain ⟨d, rfl⟩ := Nat.exists_eq_add_of_le' hle
  have hsame : eval^[d + k] start = eval^[k] start := by
    rw [Function.iterate_add_apply]
    exact Function.iterate_fixed h.2 d
  rw [hsame]
  exact h

theorem Settles.unique (h : Settles eval start stop) (h' : Settles eval start stop') :
    stop = stop' := by
  obtain ⟨k, hk⟩ := h.iterate_eq
  obtain ⟨k', hk'⟩ := h'.iterate_eq
  calc stop = eval^[max k k'] start := (hk _ (Nat.le_max_left k k')).symm
    _ = stop' := hk' _ (Nat.le_max_right k k')

theorem Settles.invariant (P : α → Prop) (h : Settles eval start stop) (hinit : P start)
    (hstep : ∀ x, P x → P (eval x)) : P stop := by
  obtain ⟨⟨k, rfl⟩, -⟩ := h
  induction k with
  | zero => exact hinit
  | succ k ih =>
      rw [Function.iterate_succ_apply']
      exact hstep _ ih

section Related

variable {eval' : β → β} {start' stop'' : β} (R : α → β → Prop)

theorem iterate_related (hinit : R start start') (hstep : ∀ x y, R x y → R (eval x) (eval' y))
    (k : Nat) : R (eval^[k] start) (eval'^[k] start') := by
  induction k with
  | zero => exact hinit
  | succ k ih =>
      rw [Function.iterate_succ_apply', Function.iterate_succ_apply']
      exact hstep _ _ ih

theorem Settles.related (h : Settles eval start stop) (h' : Settles eval' start' stop'')
    (hinit : R start start') (hstep : ∀ x y, R x y → R (eval x) (eval' y)) : R stop stop'' := by
  obtain ⟨k, hk⟩ := h.iterate_eq
  obtain ⟨k', hk'⟩ := h'.iterate_eq
  rw [← hk (max k k') (Nat.le_max_left k k'), ← hk' (max k k') (Nat.le_max_right k k')]
  exact iterate_related R hinit hstep _

end Related

end Settling
