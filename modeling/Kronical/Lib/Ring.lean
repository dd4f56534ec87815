import Mathlib.Data.List.Basic

/-!
# Bounded buffers

A buffer of at most `cap` entries that drops its oldest entry to make room. After any pushes it
holds the last `cap` entries (`reverse_foldl_push`, read from the newest).
-/

namespace Ring

variable {α : Type*} {cap : Nat}

/-- Append `x`, dropping the oldest entry of a full buffer. -/
def push (cap : Nat) (buffer : List α) (x : α) : List α :=
  (if cap ≤ buffer.length then buffer.tail else buffer) ++ [x]

theorem length_push_le {buffer : List α} (hcap : 0 < cap) (h : buffer.length ≤ cap) (x : α) :
    (push cap buffer x).length ≤ cap := by
  unfold push
  split_ifs <;> simp <;> omega

theorem reverse_push {buffer : List α} (hcap : 0 < cap) (h : buffer.length ≤ cap) (x : α) :
    (push cap buffer x).reverse = (x :: buffer.reverse).take cap := by
  obtain ⟨n, rfl⟩ : ∃ n, cap = n + 1 := ⟨cap - 1, by omega⟩
  unfold push
  split_ifs with hfull
  · have hlen : buffer.length = n + 1 := by omega
    rw [List.reverse_append, List.take_succ_cons, List.reverse_singleton, List.singleton_append,
      List.take_reverse, hlen, Nat.add_sub_cancel_left, List.drop_one]
  · rw [List.reverse_append, List.reverse_singleton, List.singleton_append,
      List.take_of_length_le (by simp; omega)]

/-- The buffer after any pushes, newest entry first. -/
theorem reverse_foldl_push (hcap : 0 < cap) {buffer : List α} (h : buffer.length ≤ cap)
    (xs : List α) :
    (xs.foldl (push cap) buffer).reverse = (xs.reverse ++ buffer.reverse).take cap := by
  induction xs generalizing buffer with
  | nil => simp [List.take_of_length_le, h]
  | cons x xs ih =>
    rw [List.foldl_cons, ih (length_push_le hcap h x), reverse_push hcap h, List.reverse_cons,
      List.append_assoc, List.singleton_append, List.take_append, List.take_append,
      List.take_take, Nat.min_eq_left (Nat.sub_le _ _)]

end Ring
