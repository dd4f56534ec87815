import Mathlib.Algebra.BigOperators.Group.List.Lemmas
import Mathlib.Algebra.Order.Ring.Int
import Mathlib.Algebra.Order.Ring.Nat
import Mathlib.Order.Bounds.Basic
import Mathlib.Order.MinMax

/-!
# Folds

What loops that add up, or keep the least or the greatest, come to: sums that wrap or saturate, and least
and greatest elements.
-/

namespace Folds

variable {α τ : Type*}

/-! ### Sums -/

theorem wrapping_le (n : Nat) (f : α → Nat) (l : List α) (a : Nat) :
    l.foldl (fun t x => (t + f x) % n) a ≤ a + (l.map f).sum := by
  induction l generalizing a with
  | nil => simp
  | cons x l ih =>
    have hle := ih ((a + f x) % n)
    have hmod := Nat.mod_le (a + f x) n
    rw [List.foldl_cons, List.map_cons, List.sum_cons]
    omega

theorem wrapping_eq {n : Nat} {f : α → Nat} {l : List α} {a : Nat} (h : a + (l.map f).sum < n) :
    l.foldl (fun t x => (t + f x) % n) a = a + (l.map f).sum := by
  induction l generalizing a with
  | nil => simp
  | cons x l ih =>
    rw [List.map_cons, List.sum_cons, ← Nat.add_assoc] at h
    have hfits : (a + f x) % n = a + f x := Nat.mod_eq_of_lt (by omega)
    rw [List.foldl_cons, hfits, ih h, List.map_cons, List.sum_cons, Nat.add_assoc]

theorem saturating_eq (n : Nat) (f : α → Nat) (l : List α) {a : Nat} (h : a ≤ n) :
    l.foldl (fun t x => min (t + f x) n) a = min (a + (l.map f).sum) n := by
  induction l generalizing a with
  | nil => simp [h]
  | cons x l ih =>
    rw [List.foldl_cons, ih (min_le_right _ _), List.map_cons, List.sum_cons]
    omega

theorem bmod_wrapping (n : Nat) (f : α → Int) (l : List α) (a : Int) :
    (l.foldl (fun t x => (t + f x).bmod n) a).bmod n = (a + (l.map f).sum).bmod n := by
  induction l generalizing a with
  | nil => simp
  | cons x l ih =>
    rw [List.foldl_cons, ih, Int.bmod_add_bmod, List.map_cons, List.sum_cons, Int.add_assoc]

theorem bmod_wrapping_eq {n : Nat} {f : α → Int} {l : List α} {a : Int}
    (h : (a + (l.map f).sum).bmod n = a + (l.map f).sum) :
    l.foldl (fun t x => (t + f x).bmod n) a = a + (l.map f).sum := by
  rcases List.eq_nil_or_concat' l with rfl | ⟨front, last, rfl⟩
  · simp
  · have hfront := bmod_wrapping n f front a
    rw [List.map_append, List.sum_append, List.map_singleton, List.sum_singleton, ← Int.add_assoc] at h
    rw [List.foldl_append, List.foldl_cons, List.foldl_nil, ← Int.bmod_add_bmod, hfront,
      Int.bmod_add_bmod, h, List.map_append, List.sum_append, List.map_singleton, List.sum_singleton,
      Int.add_assoc]

/-! ### The least and the greatest -/

variable [LinearOrder τ]

theorem ite_eq_min (t x : τ) : (if x < t then x else t) = min t x := by
  rcases lt_or_ge x t with h | h
  · rw [if_pos h, min_eq_right h.le]
  · rw [if_neg (not_lt.mpr h), min_eq_left h]

theorem ite_eq_max (t x : τ) : (if t < x then x else t) = max t x := ite_eq_min (τ := τᵒᵈ) t x

theorem min_perm (f : α → τ) {l l' : List α} (h : l.Perm l') (a : τ) :
    l.foldl (fun t x => min t (f x)) a = l'.foldl (fun t x => min t (f x)) a :=
  h.foldl_eq' (f := fun t x => min t (f x)) (fun _ _ _ _ t => min_right_comm t _ _) a

theorem max_perm (f : α → τ) {l l' : List α} (h : l.Perm l') (a : τ) :
    l.foldl (fun t x => max t (f x)) a = l'.foldl (fun t x => max t (f x)) a :=
  min_perm (τ := τᵒᵈ) f h a

theorem isLeast_min (f : α → τ) (l : List α) (a : τ) :
    IsLeast (insert a {t | ∃ x ∈ l, t = f x}) (l.foldl (fun t x => min t (f x)) a) := by
  induction l using List.reverseRecOn with
  | nil => simp
  | append_singleton l x ih =>
    obtain ⟨hmem, hlow⟩ := ih
    rw [List.foldl_append]
    constructor
    · rcases min_choice (l.foldl (fun t x => min t (f x)) a) (f x) with h | h
      · rw [List.foldl_cons, List.foldl_nil, h]
        rcases hmem with hmem | ⟨y, hy, hmem⟩
        · exact Or.inl hmem
        · exact Or.inr ⟨y, List.mem_append_left _ hy, hmem⟩
      · rw [List.foldl_cons, List.foldl_nil, h]
        exact Or.inr ⟨x, by simp, rfl⟩
    · rintro t (rfl | ⟨y, hy, rfl⟩)
      · exact (min_le_left _ _).trans (hlow (Or.inl rfl))
      · rcases List.mem_append.mp hy with hy | hy
        · exact (min_le_left _ _).trans (hlow (Or.inr ⟨y, hy, rfl⟩))
        · rw [List.mem_singleton.mp hy]
          exact min_le_right _ _

theorem isLeast_min_cons (f : α → τ) (x : α) (l : List α) :
    IsLeast {t | ∃ y ∈ x :: l, t = f y} ((x :: l).foldl (fun t y => min t (f y)) (f x)) := by
  have hfirst : f x ∈ {t | ∃ y ∈ x :: l, t = f y} := ⟨x, List.mem_cons_self, rfl⟩
  rw [← Set.insert_eq_of_mem hfirst]
  exact isLeast_min f (x :: l) (f x)

theorem isGreatest_max_cons (f : α → τ) (x : α) (l : List α) :
    IsGreatest {t | ∃ y ∈ x :: l, t = f y} ((x :: l).foldl (fun t y => max t (f y)) (f x)) :=
  isLeast_min_cons (τ := τᵒᵈ) f x l

theorem isLeast_min_iff (f : α → τ) (l : List α) (a : τ) :
    IsLeast {t | ∃ x ∈ l, t = f x} (l.foldl (fun t x => min t (f x)) a) ↔ ∃ x ∈ l, f x ≤ a := by
  obtain ⟨hmem, hlow⟩ := isLeast_min f l a
  constructor
  · rintro ⟨⟨x, hx, heq⟩, -⟩
    exact ⟨x, hx, heq ▸ hlow (Or.inl rfl)⟩
  · rintro ⟨x, hx, hle⟩
    refine ⟨?_, fun t ht => hlow (Or.inr ht)⟩
    rcases hmem with heq | hmem
    · -- The seed is least: it is the element that is not above it.
      have hge := hlow (Or.inr ⟨x, hx, rfl⟩)
      exact ⟨x, hx, le_antisymm hge (hle.trans heq.ge)⟩
    · exact hmem

theorem isGreatest_max_iff (f : α → τ) (l : List α) (a : τ) :
    IsGreatest {t | ∃ x ∈ l, t = f x} (l.foldl (fun t x => max t (f x)) a) ↔ ∃ x ∈ l, a ≤ f x :=
  isLeast_min_iff (τ := τᵒᵈ) f l a

theorem isLeast_parts (parts : α → Set τ) {least : α → τ} {l : List α}
    (h : ∀ x ∈ l, IsLeast (parts x) (least x)) {a : τ} (ha : IsLeast {t | ∃ x ∈ l, t = least x} a) :
    IsLeast {t | ∃ x ∈ l, t ∈ parts x} a := by
  obtain ⟨⟨x, hx, rfl⟩, hlow⟩ := ha
  refine ⟨⟨x, hx, (h x hx).1⟩, ?_⟩
  rintro t ⟨y, hy, ht⟩
  exact (hlow ⟨y, hy, rfl⟩).trans ((h y hy).2 ht)

theorem isGreatest_parts (parts : α → Set τ) {greatest : α → τ} {l : List α}
    (h : ∀ x ∈ l, IsGreatest (parts x) (greatest x)) {a : τ}
    (ha : IsGreatest {t | ∃ x ∈ l, t = greatest x} a) : IsGreatest {t | ∃ x ∈ l, t ∈ parts x} a :=
  isLeast_parts (τ := τᵒᵈ) parts h ha

end Folds
