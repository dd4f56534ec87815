import Mathlib.Data.List.DropRight

/-!
# Trimming

A list without the elements at its two ends that satisfy `p`.
-/

namespace Trimming

variable {α : Type*} {p : α → Bool}

def trim (p : α → Bool) (l : List α) : List α := (l.dropWhile p).rdropWhile p

theorem trim_append {before after : List α} (l : List α) (hbefore : ∀ a ∈ before, p a = true)
    (hafter : ∀ a ∈ after, p a = true) : trim p (before ++ l ++ after) = trim p l := by
  have hdrop : ∀ l : List α, (l ++ after).rdropWhile p = l.rdropWhile p := by
    intro l
    have hreverse : ∀ a ∈ after.reverse, p a = true := fun a ha => hafter a (List.mem_reverse.mp ha)
    rw [List.rdropWhile, List.rdropWhile, List.reverse_append, List.dropWhile_append_of_pos hreverse]
  unfold trim
  rw [List.append_assoc, List.dropWhile_append_of_pos hbefore, List.dropWhile_append]
  split_ifs with hall
  · rw [List.dropWhile_eq_nil_iff.mpr hafter, List.isEmpty_iff.mp hall]
  · exact hdrop _

theorem trim_of_ends {l : List α} (hhead : ∀ a ∈ l.head?, p a = false)
    (hlast : ∀ a ∈ l.getLast?, p a = false) : trim p l = l := by
  have hfront : l.dropWhile p = l := by
    cases l with
    | nil => rfl
    | cons a l => exact List.dropWhile_cons_of_neg (by simp [hhead a rfl])
  unfold trim
  rw [hfront, List.rdropWhile_eq_self_iff]
  intro hne
  simp [hlast _ (List.getLast?_eq_some_getLast hne)]

end Trimming
