import Mathlib.Algebra.Group.Nat.Defs

/-!
# A queue of bits

Numbers are appended to a queue by their low bits and taken from its front again. What a program
appends and what a program takes are described by the bits alone, so that a reader is checked against
a writer field by field, whatever follows in the queue.
-/

namespace BitStream

variable {α β γ : Type}

/-- The low `size` bits, the lowest first. -/
def lowBits : Nat → Nat → List Bool
  | _, 0 => []
  | value, size + 1 => (value % 2 == 1) :: lowBits (value / 2) size

def toNat : List Bool → Nat
  | [] => 0
  | bit :: bits => bit.toNat + 2 * toNat bits

def push (value size : Nat) : StateM (List Bool) Unit := modify (· ++ lowBits value size)

def pop (size : Nat) : StateM (List Bool) Nat :=
  modifyGet fun queue => (toNat (queue.take size), queue.drop size)

theorem length_lowBits (value size : Nat) : (lowBits value size).length = size := by
  induction size generalizing value with
  | zero => rfl
  | succ size ih => rw [lowBits, List.length_cons, ih]

theorem toNat_lowBits (value size : Nat) : toNat (lowBits value size) = value % 2 ^ size := by
  induction size generalizing value with
  | zero => rw [Nat.pow_zero, Nat.mod_one, lowBits, toNat]
  | succ size ih =>
      have hbit : (value % 2 == 1).toNat = value % 2 := by
        rcases Nat.mod_two_eq_zero_or_one value with h | h <;> rw [h] <;> rfl
      rw [lowBits, toNat, ih, hbit, Nat.pow_succ', Nat.mod_mul]

/-- `m` appends `bits` to whatever is in the queue. -/
def Appends (m : StateM (List Bool) Unit) (bits : List Bool) : Prop :=
  ∀ queue, m.run queue = ((), queue ++ bits)

/-- `m` takes `bits` from the front of the queue and returns `x`. -/
def Yields (m : StateM (List Bool) α) (bits : List Bool) (x : α) : Prop :=
  ∀ rest, m.run (bits ++ rest) = (x, rest)

/-! ### Writers -/

section Writers

variable {m m' : StateM (List Bool) Unit} {bits bits' : List Bool}

theorem appends_push (value size : Nat) : Appends (push value size) (lowBits value size) :=
  fun _ => rfl

theorem Appends.seq (h : Appends m bits) (h' : Appends m' bits') :
    Appends (m >>= fun _ => m') (bits ++ bits') := by
  intro queue
  rw [StateT.run_bind, h queue, ← List.append_assoc]
  exact h' _

theorem appends_forM {f : γ → StateM (List Bool) Unit} {enc : γ → List Bool}
    (hf : ∀ x, Appends (f x) (enc x)) (l : List γ) : Appends (l.forM f) (l.flatMap enc) := by
  induction l with
  | nil =>
      intro queue
      rw [List.flatMap_nil, List.append_nil]
      rfl
  | cons x l ih =>
      rw [List.flatMap_cons]
      exact (hf x).seq ih

end Writers

/-! ### Readers -/

section Readers

variable {m : StateM (List Bool) α} {f : α → StateM (List Bool) β} {bits bits' : List Bool} {x : α}
  {y : β}

theorem yields_pure (x : α) : Yields (pure x) [] x := fun _ => rfl

theorem Yields.bind (h : Yields m bits x) (h' : Yields (f x) bits' y) :
    Yields (m >>= f) (bits ++ bits') y := by
  intro rest
  rw [StateT.run_bind, List.append_assoc, h]
  exact h' rest

theorem Yields.bind_pure (h : Yields m bits x) (g : α → β) :
    Yields (m >>= fun a => pure (g a)) bits (g x) := by
  have hbind := Yields.bind (f := fun a => pure (g a)) h (yields_pure (g x))
  rwa [List.append_nil] at hbind

theorem yields_pop (value size : Nat) :
    Yields (pop size) (lowBits value size) (value % 2 ^ size) := by
  intro rest
  have hlen := length_lowBits value size
  have htake : (lowBits value size ++ rest).take size = lowBits value size :=
    List.take_left' hlen
  have hdrop : (lowBits value size ++ rest).drop size = rest := List.drop_left' hlen
  have hrun : (pop size).run (lowBits value size ++ rest) =
      (toNat ((lowBits value size ++ rest).take size), (lowBits value size ++ rest).drop size) := rfl
  rw [hrun, htake, hdrop, toNat_lowBits]

theorem yields_foldlM {f : β → γ → StateM (List Bool) β} {enc : γ → List Bool} {next : β → γ → β}
    (hf : ∀ acc x, Yields (f acc x) (enc x) (next acc x)) (l : List γ) (acc : β) :
    Yields (l.foldlM f acc) (l.flatMap enc) (l.foldl next acc) := by
  induction l generalizing acc with
  | nil => exact yields_pure acc
  | cons x l ih =>
      rw [List.flatMap_cons]
      exact (hf acc x).bind (ih _)

/-- As many reads as there are values, each given something of its own to start from. -/
theorem yields_mapM {read : γ → StateM (List Bool) α} {enc : α → List Bool}
    (hread : ∀ t x, Yields (read t) (enc x) x) (xs : List α) (ts : List γ)
    (hlen : ts.length = xs.length) : Yields (ts.mapM read) (xs.flatMap enc) xs := by
  induction xs generalizing ts with
  | nil =>
      rw [List.eq_nil_of_length_eq_zero hlen]
      exact yields_pure []
  | cons x xs ih =>
      obtain ⟨t, ts, rfl⟩ := List.exists_cons_of_length_eq_add_one hlen
      rw [List.mapM_cons, List.flatMap_cons]
      exact (hread t x).bind ((ih ts (Nat.succ.inj hlen)).bind_pure (x :: ·))

/-- What was appended to the empty queue is taken from it to the end. -/
theorem Yields.run_appended {w : StateM (List Bool) Unit} (h : Yields m bits x)
    (hw : Appends w bits) : (w >>= fun _ => m).run [] = (x, []) := by
  have hread := h []
  rw [List.append_nil] at hread
  rw [StateT.run_bind, hw []]
  exact hread

end Readers

end BitStream
