import Mathlib.Data.List.Pairwise
import Mathlib.Data.List.TakeWhile
import Mathlib.Order.MinMax

/-!
# Sliding windows

A queue that is pushed at its end and from whose front the elements below a cut are dropped now and then.
If the keys of the elements and the cuts never decrease, what is left behind a cut is just what was ever
pushed and is not below it (`Holds.dropWhile_eq`).
-/

namespace SlidingWindow

variable {α τ : Type*} [LinearOrder τ] {key : α → τ}

/-- Of everything pushed, only a front below the cut was dropped. -/
def Holds (key : α → τ) (pushed window : List α) (cut : τ) : Prop :=
  ∃ dropped, pushed = dropped ++ window ∧ ∀ a ∈ dropped, key a < cut

theorem dropWhile_eq_filter {l : List α} (hsorted : l.Pairwise fun a b => key a ≤ key b) (cut : τ) :
    l.dropWhile (key · < cut) = l.filter (cut ≤ key ·) := by
  induction l with
  | nil => rfl
  | cons a l ih =>
    obtain ⟨ha, hl⟩ := List.pairwise_cons.mp hsorted
    by_cases hlow : key a < cut
    · rw [List.dropWhile_cons_of_pos (by simpa using hlow),
        List.filter_cons_of_neg (by simpa using hlow), ih hl]
    · have hall : ∀ b ∈ a :: l, decide (cut ≤ key b) = true := fun b hb => by
        rcases List.mem_cons.mp hb with rfl | hb
        · simpa using hlow
        · simpa using (not_lt.mp hlow).trans (ha b hb)
      rw [List.dropWhile_cons_of_neg (by simpa using hlow), List.filter_eq_self.mpr hall]

namespace Holds

variable {pushed window : List α} {cut cut' : τ}

theorem refl (l : List α) (cut : τ) : Holds key l l cut := ⟨[], rfl, by simp⟩

theorem mono (h : Holds key pushed window cut) (hcut : cut ≤ cut') : Holds key pushed window cut' := by
  obtain ⟨dropped, hsplit, hlow⟩ := h
  exact ⟨dropped, hsplit, fun a ha => (hlow a ha).trans_le hcut⟩

theorem push (h : Holds key pushed window cut) (more : List α) :
    Holds key (pushed ++ more) (window ++ more) cut := by
  obtain ⟨dropped, rfl, hlow⟩ := h
  exact ⟨dropped, List.append_assoc .., hlow⟩

theorem dropWhile (h : Holds key pushed window cut) :
    Holds key pushed (window.dropWhile (key · < cut)) cut := by
  obtain ⟨dropped, rfl, hlow⟩ := h
  refine ⟨dropped ++ window.takeWhile (key · < cut), ?_, fun a ha => ?_⟩
  · rw [List.append_assoc, List.takeWhile_append_dropWhile]
  · rcases List.mem_append.mp ha with ha | ha
    · exact hlow a ha
    · simpa using List.mem_takeWhile_imp ha

/-- What is left behind a cut. -/
theorem dropWhile_eq (h : Holds key pushed window cut)
    (hsorted : pushed.Pairwise fun a b => key a ≤ key b) :
    window.dropWhile (key · < cut) = pushed.filter (cut ≤ key ·) := by
  obtain ⟨dropped, rfl, hlow⟩ := h
  have hnone : dropped.filter (cut ≤ key ·) = [] :=
    List.filter_eq_nil_iff.mpr fun a ha => by simpa using hlow a ha
  rw [dropWhile_eq_filter (List.pairwise_append.mp hsorted).2.1, List.filter_append, hnone,
    List.nil_append]

end Holds

end SlidingWindow
