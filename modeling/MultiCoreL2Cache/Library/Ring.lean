import Mathlib.Data.Nat.ModEq
import Mathlib.Logic.Function.Basic

/-!
# Queues in a ring of slots

A ring buffer keeps a queue in `m` slots between two pointers that wrap. Equal pointers mean either
an empty or a full ring, so the pointers alone do not determine the queue. Here a predicate `live` on
the slots settles it, as a valid bit does in hardware.
-/

namespace Ring

variable {α : Type*} {m : Nat} {live : α → Prop} {slot : Nat → α} {head tail : Nat}
  {queue : List α}

/-- The live slots are exactly the queue, front at `head` and back just before `tail`. -/
structure Holds (m : Nat) (live : α → Prop) (slot : Nat → α) (head tail : Nat)
    (queue : List α) : Prop where
  head_lt : head < m
  length_le : queue.length ≤ m
  tail_eq : tail = (head + queue.length) % m
  live_iff : ∀ k < m, live (slot ((head + k) % m)) ↔ k < queue.length
  slot_eq : ∀ k (hk : k < queue.length), slot ((head + k) % m) = queue[k]

theorem offset_inj {j k : Nat} (hj : j < m) (hk : k < m)
    (heq : (head + j) % m = (head + k) % m) : j = k := by
  have hmod : j % m = k % m := Nat.ModEq.add_left_cancel' head heq
  rwa [Nat.mod_eq_of_lt hj, Nat.mod_eq_of_lt hk] at hmod

theorem succ_ne (hhead : head < m) (hm : 1 < m) : (head + 1) % m ≠ head := by
  intro heq
  have hsame : (head + 1) % m = (head + 0) % m := heq.trans (Nat.mod_eq_of_lt hhead).symm
  exact absurd (offset_inj hm (Nat.zero_lt_of_lt hm) hsame) (by omega)

theorem holds_nil (hhead : head < m) (hdead : ∀ k < m, ¬live (slot k)) :
    Holds m live slot head head [] where
  head_lt := hhead
  length_le := Nat.zero_le m
  tail_eq := (Nat.mod_eq_of_lt hhead).symm
  live_iff k _ := by
    have hlt : (head + k) % m < m := Nat.mod_lt _ (by omega)
    simp [hdead _ hlt]
  slot_eq k hk := absurd hk (Nat.not_lt_zero k)

/-- One step of a queue bounded by `capacity`: the front leaves when `pop` holds, and at most one
entry joins at the back. -/
def FifoStep (capacity : Nat) (pop : Prop) [Decidable pop] (queue queue' : List α) : Prop :=
  (pop → queue ≠ []) ∧ queue'.length ≤ capacity ∧
    ∃ joined : List α, joined.length ≤ 1 ∧
      queue ++ joined = (if pop then queue.take 1 else []) ++ queue'

namespace Holds

theorem live_head_iff (h : Holds m live slot head tail queue) :
    live (slot head) ↔ queue ≠ [] := by
  have hlive := h.live_iff 0 (Nat.zero_lt_of_lt h.head_lt)
  rw [Nat.add_zero, Nat.mod_eq_of_lt h.head_lt] at hlive
  rw [hlive, List.length_pos_iff]

theorem live_tail_iff (h : Holds m live slot head tail queue) :
    live (slot tail) ↔ queue.length = m := by
  rw [h.tail_eq]
  have hle := h.length_le
  constructor
  · intro hlive
    by_contra hne
    have hlt : queue.length < m := by omega
    exact Nat.lt_irrefl _ ((h.live_iff _ hlt).mp hlive)
  · intro hfull
    have hpos := Nat.zero_lt_of_lt h.head_lt
    rw [hfull, Nat.add_mod_right]
    exact (h.live_iff 0 hpos).mpr (by omega)

theorem second_ne_tail (h : Holds m live slot head tail queue) (hm : 1 < m)
    (hlive : live (slot ((head + 1) % m))) : (head + 1) % m ≠ tail := by
  have hlen := (h.live_iff 1 hm).mp hlive
  intro heq
  rw [h.tail_eq] at heq
  rcases Nat.lt_or_eq_of_le h.length_le with hlt | hfull
  · exact absurd (offset_inj hm hlt heq) (by omega)
  · rw [hfull, Nat.add_mod_right, Nat.mod_eq_of_lt h.head_lt] at heq
    exact succ_ne h.head_lt hm heq

/-- Counted backwards from the tail, the live slots come first. -/
theorem live_back_iff (h : Holds m live slot head tail queue) {j : Nat} (hj : j < m) :
    live (slot ((tail + (m - 1 - j)) % m)) ↔ j < queue.length := by
  have hle := h.length_le
  rw [h.tail_eq, Nat.mod_add_mod]
  by_cases hlen : j < queue.length
  · have hwrap : head + queue.length + (m - 1 - j) = head + (queue.length - 1 - j) + m := by omega
    rw [hwrap, Nat.add_mod_right, h.live_iff _ (by omega)]
    omega
  · rw [Nat.add_assoc, h.live_iff _ (by omega)]
    omega

/-- The tail and the live slots leave one place for the head. -/
theorem head_unique {head' : Nat} {queue' : List α} (h : Holds m live slot head tail queue)
    (h' : Holds m live slot head' tail queue') : head = head' := by
  have hlen : queue.length = queue'.length := by
    have hback : ∀ j < m, (j < queue.length ↔ j < queue'.length) := fun j hj =>
      (h.live_back_iff hj).symm.trans (h'.live_back_iff hj)
    have hle := h.length_le
    have hle' := h'.length_le
    rcases Nat.lt_trichotomy queue.length queue'.length with hlt | heq | hgt
    · exact absurd ((hback _ (by omega)).mpr hlt) (Nat.lt_irrefl _)
    · exact heq
    · exact absurd ((hback _ (by omega)).mp hgt) (Nat.lt_irrefl _)
  have htail : head + queue.length ≡ head' + queue.length [MOD m] := by
    have heq := h.tail_eq.symm.trans h'.tail_eq
    rwa [← hlen] at heq
  calc head = head % m := (Nat.mod_eq_of_lt h.head_lt).symm
    _ = head' % m := Nat.ModEq.add_right_cancel' queue.length htail
    _ = head' := Nat.mod_eq_of_lt h'.head_lt

theorem congr {slot' : Nat → α} (h : Holds m live slot head tail queue)
    (hagree : ∀ k < m, slot' k = slot k) : Holds m live slot' head tail queue := by
  have hpos := Nat.zero_lt_of_lt h.head_lt
  refine ⟨h.head_lt, h.length_le, h.tail_eq, fun k hk => ?_, fun k hk => ?_⟩
  · rw [hagree _ (Nat.mod_lt _ hpos)]
    exact h.live_iff k hk
  · rw [hagree _ (Nat.mod_lt _ hpos)]
    exact h.slot_eq k hk

theorem pop {x : α} (h : Holds m live slot head tail (x :: queue)) (dead : α) (hdead : ¬live dead) :
    Holds m live (Function.update slot head dead) ((head + 1) % m) tail queue := by
  have hpos := Nat.zero_lt_of_lt h.head_lt
  have hlen : queue.length + 1 ≤ m := h.length_le
  have hshift : ∀ k, ((head + 1) % m + k) % m = (head + (k + 1)) % m := by
    intro k
    rw [Nat.mod_add_mod]
    congr 1
    omega
  have hhead : (head + 0) % m = head := Nat.mod_eq_of_lt h.head_lt
  have hmiss : ∀ k, k + 1 < m → (head + (k + 1)) % m ≠ head := by
    intro k hk heq
    exact absurd (offset_inj hk hpos (heq.trans hhead.symm)) (by omega)
  refine ⟨Nat.mod_lt _ hpos, by omega, ?_, fun k hk => ?_, fun k hk => ?_⟩
  · rw [h.tail_eq, hshift]
    rfl
  · rw [hshift]
    by_cases hlast : k + 1 < m
    · rw [Function.update_of_ne (hmiss k hlast), h.live_iff (k + 1) hlast]
      simp
    · -- the offset `m - 1` from the new head is the old head, which has just been killed
      have hwrap : (head + (k + 1)) % m = head := by
        rw [show k + 1 = m by omega, Nat.add_mod_right, Nat.mod_eq_of_lt h.head_lt]
      rw [hwrap, Function.update_self]
      constructor
      · exact fun hlive => absurd hlive hdead
      · omega
  · rw [hshift, Function.update_of_ne (hmiss k (by omega))]
    exact h.slot_eq (k + 1) (by simpa using hk)

theorem push (h : Holds m live slot head tail queue) (hroom : queue.length < m) (y : α)
    (hlive : live y) :
    Holds m live (Function.update slot tail y) head ((tail + 1) % m) (queue ++ [y]) := by
  have hother : ∀ k < m, k ≠ queue.length → (head + k) % m ≠ tail := by
    intro k hk hne heq
    exact hne (offset_inj hk hroom (heq.trans h.tail_eq))
  refine ⟨h.head_lt, ?_, ?_, fun k hk => ?_, fun k hk => ?_⟩
  · rw [List.length_append]
    exact hroom
  · rw [h.tail_eq, Nat.mod_add_mod, List.length_append]
    rfl
  · rw [List.length_append, List.length_singleton]
    by_cases heq : k = queue.length
    · subst heq
      rw [← h.tail_eq, Function.update_self]
      exact ⟨fun _ => Nat.lt_succ_self _, fun _ => hlive⟩
    · rw [Function.update_of_ne (hother k hk heq), h.live_iff k hk]
      omega
  · rw [List.length_append, List.length_singleton] at hk
    by_cases heq : k = queue.length
    · subst heq
      rw [← h.tail_eq, Function.update_self]
      simp
    · have hlt : k < queue.length := by omega
      rw [Function.update_of_ne (hother k (by omega) heq), h.slot_eq k hlt,
        List.getElem_append_left hlt]

end Holds

/-! ### A log in a ring

A ring that never clears a slot is a window on the log of all entries that ever joined: entry `j` goes
to slot `j % m` and stays there until entry `j + m` comes. -/

/-- The last of the entries numbered below `len` that went to slot `i`. -/
def latest (m i : Nat) : Nat → Option Nat
  | 0 => none
  | len + 1 => if len % m = i then some len else latest m i len

section Latest

variable {i j len : Nat}

theorem latest_succ_self (m len : Nat) : latest m (len % m) (len + 1) = some len := by
  rw [latest, if_pos rfl]

theorem latest_succ_of_ne (h : i ≠ len % m) : latest m i (len + 1) = latest m i len := by
  rw [latest, if_neg (Ne.symm h)]

theorem latest_lt (h : latest m i len = some j) : j < len := by
  induction len with
  | zero => cases h
  | succ len ih =>
      unfold latest at h
      split at h
      · cases h
        exact Nat.lt_succ_self _
      · exact Nat.lt_succ_of_lt (ih h)

theorem latest_mod (h : latest m i len = some j) : j % m = i := by
  induction len with
  | zero => cases h
  | succ len ih =>
      unfold latest at h
      split at h
      · rename_i hslot
        cases h
        exact hslot
      · exact ih h

/-- Entry `j` is still in its slot exactly while fewer than `m` entries have joined after it. -/
theorem latest_eq_some_iff (hm : 0 < m) (hj : j % m = i) :
    latest m i len = some j ↔ j < len ∧ len ≤ j + m := by
  induction len with
  | zero => simp [latest]
  | succ len ih =>
      by_cases hslot : len % m = i
      · rw [latest, if_pos hslot, Option.some.injEq]
        constructor
        · rintro rfl
          omega
        · rintro ⟨hlt, hle⟩
          -- both are in slot `i` and less than `m` apart
          have hmod : len ≡ j [MOD m] := hslot.trans hj.symm
          by_contra hne
          have hdvd : m ∣ len - j := (Nat.modEq_iff_dvd' (by omega)).mp hmod.symm
          exact absurd (Nat.le_of_dvd (by omega) hdvd) (by omega)
      · rw [latest, if_neg hslot, ih]
        constructor
        · rintro ⟨hlt, hle⟩
          refine ⟨by omega, ?_⟩
          by_contra hfull
          have hwrap : len = j + m := by omega
          rw [hwrap, Nat.add_mod_right] at hslot
          exact hslot hj
        · rintro ⟨hlt, hle⟩
          refine ⟨?_, by omega⟩
          by_contra hlast
          have heq : len = j := by omega
          exact hslot (heq ▸ hj)

theorem latest_eq_none_iff (hi : i < m) : latest m i len = none ↔ len ≤ i := by
  induction len with
  | zero => simp [latest]
  | succ len ih =>
      by_cases hslot : len % m = i
      · rw [latest, if_pos hslot]
        have hle : i ≤ len := hslot ▸ Nat.mod_le len m
        exact iff_of_false (by simp) (by omega)
      · rw [latest, if_neg hslot, ih]
        have hne : len ≠ i := by
          rintro rfl
          exact hslot (Nat.mod_eq_of_lt hi)
        omega

end Latest

end Ring
