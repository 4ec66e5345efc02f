import Mathlib.Data.Fintype.Basic
import Mathlib.Data.List.Rotate
import Mathlib.Order.WithBot

/-!
# Recency of use

A log of uses, newest first. What was never used is older than all that was, and among itself it is
ordered by the order of the type. A list that moves each used element to its end keeps that order.
-/

namespace Recency

variable {α : Type*} [LinearOrder α] {init log order : List α} {a b x : α}

/-- When `a` was last used, `⊥` for never. -/
def lastUse : List α → α → WithBot Nat
  | [], _ => ⊥
  | x :: earlier, a => if a = x then .some earlier.length else lastUse earlier a

theorem lastUse_lt_length (log : List α) (a : α) : lastUse log a < WithBot.some log.length := by
  induction log with
  | nil => exact WithBot.bot_lt_coe _
  | cons x earlier ih =>
      have hlt : WithBot.some earlier.length < WithBot.some (x :: earlier).length :=
        WithBot.coe_lt_coe.mpr (Nat.lt_succ_self _)
      unfold lastUse
      split
      · exact hlt
      · exact ih.trans hlt

def Older (log : List α) (a b : α) : Prop :=
  lastUse log a < lastUse log b ∨ (lastUse log a = lastUse log b ∧ a < b)

instance (log : List α) (a b : α) : Decidable (Older log a b) := instDecidableOr

def IsOldest (log : List α) (a : α) : Prop := ∀ b, b ≠ a → Older log a b

def IsNewest (log : List α) (a : α) : Prop := ∀ b, b ≠ a → Older log b a

instance [Fintype α] (log : List α) (a : α) : Decidable (IsOldest log a) :=
  inferInstanceAs (Decidable (∀ b, b ≠ a → _))

instance [Fintype α] (log : List α) (a : α) : Decidable (IsNewest log a) :=
  inferInstanceAs (Decidable (∀ b, b ≠ a → _))

theorem Older.asymm (hab : Older log a b) (hba : Older log b a) : False := by
  rcases hab with hlt | ⟨heq, hlt⟩
  · rcases hba with hgt | ⟨heq, -⟩
    · exact lt_asymm hlt hgt
    · exact hlt.ne heq.symm
  · rcases hba with hgt | ⟨-, hgt⟩
    · exact hgt.ne heq.symm
    · exact lt_asymm hlt hgt

theorem older_cons_iff (ha : a ≠ x) (hb : b ≠ x) : Older (x :: log) a b ↔ Older log a b := by
  simp [Older, lastUse, ha, hb]

theorem older_cons_self (ha : a ≠ x) : Older (x :: log) a x := by
  left
  simpa [lastUse, ha] using lastUse_lt_length log a

/-! ### The order of recency as a list -/

def touch (order : List α) (a : α) : List α := order.erase a ++ [a]

/-- Oldest first. -/
def useOrder (init : List α) : List α → List α
  | [] => init
  | x :: earlier => touch (useOrder init earlier) x

theorem perm_touch (h : a ∈ order) : (touch order a).Perm order := by
  have hcons : (touch order a).Perm (a :: order.erase a) := List.perm_append_singleton a _
  exact hcons.trans (List.perm_cons_erase h).symm

theorem perm_useOrder (hall : ∀ a, a ∈ init) (log : List α) : (useOrder init log).Perm init := by
  induction log with
  | nil => exact List.Perm.refl _
  | cons x earlier ih => exact (perm_touch (ih.mem_iff.mpr (hall x))).trans ih

theorem pairwise_older (hinit : init.Pairwise (· < ·)) (hall : ∀ a, a ∈ init) (log : List α) :
    (useOrder init log).Pairwise (Older log) := by
  induction log with
  | nil => exact hinit.imp fun hlt => .inr ⟨rfl, hlt⟩
  | cons x earlier ih =>
      have hnodup : (useOrder init earlier).Nodup :=
        (perm_useOrder hall earlier).nodup_iff.mpr (hinit.imp ne_of_lt)
      have hne : ∀ a ∈ (useOrder init earlier).erase x, a ≠ x := by
        rintro a hmem rfl
        exact (hnodup.mem_erase_iff.mp hmem).1 rfl
      refine List.pairwise_append.mpr ⟨?_, List.pairwise_singleton _ _, fun a ha b hb => ?_⟩
      · refine (ih.sublist List.erase_sublist).imp_of_mem fun ha hb hab => ?_
        exact (older_cons_iff (hne _ ha) (hne _ hb)).mpr hab
      · rw [List.mem_singleton.mp hb]
        exact older_cons_self (hne a ha)

theorem isOldest_of_head (hinit : init.Pairwise (· < ·)) (hall : ∀ a, a ∈ init) {rest : List α}
    (h : useOrder init log = a :: rest) : IsOldest log a := by
  intro b hne
  have hpairs := pairwise_older hinit hall log
  have hmem : b ∈ useOrder init log := (perm_useOrder hall log).mem_iff.mpr (hall b)
  rw [h] at hpairs hmem
  exact (List.pairwise_cons.mp hpairs).1 b ((List.mem_cons.mp hmem).resolve_left hne)

/-- A use of the newest element changes nothing. -/
theorem useOrder_cons_of_isNewest (hinit : init.Pairwise (· < ·)) (hall : ∀ a, a ∈ init)
    (h : IsNewest log a) : useOrder init (a :: log) = useOrder init log := by
  have hperm := perm_useOrder hall log
  have hmem : a ∈ useOrder init log := hperm.mem_iff.mpr (hall a)
  have hnodup : (useOrder init log).Nodup := hperm.nodup_iff.mpr (hinit.imp ne_of_lt)
  obtain ⟨before, after, hsplit⟩ := List.append_of_mem hmem
  have hpairs := pairwise_older hinit hall log
  -- nothing comes after the newest element
  have hlast : after = [] := by
    rw [List.eq_nil_iff_forall_not_mem]
    intro b hb
    rw [hsplit] at hpairs hnodup
    have hab : Older log a b :=
      (List.pairwise_cons.mp (List.pairwise_append.mp hpairs).2.1).1 b hb
    have hne : b ≠ a := by
      rintro rfl
      exact (List.nodup_cons.mp (List.nodup_append.mp hnodup).2.1).1 hb
    exact (h b hne).asymm hab
  rw [hsplit, hlast] at hnodup
  have hnotMem : a ∉ before := fun hb =>
    (List.nodup_append.mp hnodup).2.2 a hb a (List.mem_singleton_self a) rfl
  rw [useOrder, touch, hsplit, hlast, List.erase_append_right _ hnotMem]
  simp

theorem touch_head (a : α) (rest : List α) : touch (a :: rest) a = (a :: rest).rotate 1 := by
  rw [touch, List.erase_cons_head, List.rotate_cons_succ, List.rotate_zero]

end Recency
