import Mathlib.Analysis.InnerProductSpace.Basic
import Mathlib.Analysis.Convex.Segment

/-!
# Polylines

The polyline through a list of points, and how far a point is from a segment whose line its foot of the
perpendicular falls on between the ends.
-/

namespace Polyline

/-! ### Legs -/

variable {P Q : Type*}

/-- The pairs of successive points. -/
def legs (points : List P) : List (P × P) := points.zip points.tail

@[simp] theorem legs_nil : legs ([] : List P) = [] := rfl

@[simp] theorem legs_singleton (p : P) : legs [p] = [] := rfl

@[simp] theorem legs_cons_cons (p p' : P) (points : List P) :
    legs (p :: p' :: points) = (p, p') :: legs (p' :: points) := rfl

theorem legs_map (f : P → Q) (points : List P) :
    legs (points.map f) = (legs points).map (Prod.map f f) := by
  rw [legs, legs, ← List.map_tail, List.zip_map]

theorem legs_meet (left right : List P) (p : P) :
    legs (left ++ p :: right) = legs (left ++ [p]) ++ legs (p :: right) := by
  induction left with
  | nil => rfl
  | cons first left ih =>
    cases left with
    | nil => rfl
    | cons second left =>
      simp only [List.cons_append, legs_cons_cons] at ih ⊢
      rw [ih]

theorem exists_leg_of_mem {points : List P} (hlegs : legs points ≠ []) {p : P} (hp : p ∈ points) :
    ∃ leg ∈ legs points, p = leg.1 ∨ p = leg.2 := by
  match points with
  | [] | [_] => exact absurd rfl hlegs
  | [q, q'] =>
    refine ⟨(q, q'), List.mem_singleton_self _, ?_⟩
    simpa using hp
  | q :: q' :: q'' :: points =>
    rcases List.mem_cons.mp hp with rfl | hp
    · exact ⟨(p, q'), List.mem_cons_self, Or.inl rfl⟩
    · obtain ⟨leg, hleg, hend⟩ := exists_leg_of_mem (show legs (q' :: q'' :: points) ≠ [] by simp) hp
      exact ⟨leg, List.mem_cons_of_mem _ hleg, hend⟩

/-! ### Distances -/

section Within

variable {E : Type*} [PseudoMetricSpace E]

/-- The point lies within `epsilon` of the set. -/
def Within (epsilon : ℝ) (p : E) (s : Set E) : Prop := ∃ q ∈ s, dist p q ≤ epsilon

theorem within_of_mem {epsilon : ℝ} (h : 0 ≤ epsilon) {p : E} {s : Set E} (hp : p ∈ s) :
    Within epsilon p s := ⟨p, hp, by rwa [dist_self]⟩

theorem Within.mono {epsilon : ℝ} {p : E} {s t : Set E} (h : Within epsilon p s) (hst : s ⊆ t) :
    Within epsilon p t := by
  obtain ⟨q, hq, hdist⟩ := h
  exact ⟨q, hst hq, hdist⟩

end Within

section InnerProduct

variable {E : Type*} [NormedAddCommGroup E] [InnerProductSpace ℝ E]

/-- The points of the polyline through a list of points. -/
def polyline (points : List E) : Set E :=
  {q | q ∈ points ∨ ∃ leg ∈ legs points, q ∈ segment ℝ leg.1 leg.2}

theorem segment_subset_polyline {points : List E} {leg : E × E} (h : leg ∈ legs points) :
    segment ℝ leg.1 leg.2 ⊆ polyline points :=
  fun _ hq => Or.inr ⟨leg, h, hq⟩

theorem within_polyline_iff {epsilon : ℝ} {p : E} {points : List E} (hlegs : legs points ≠ []) :
    Within epsilon p (polyline points) ↔
      ∃ leg ∈ legs points, Within epsilon p (segment ℝ leg.1 leg.2) := by
  constructor
  · rintro ⟨q, hq | ⟨leg, hleg, hq⟩, hdist⟩
    · obtain ⟨leg, hleg, hend⟩ := exists_leg_of_mem hlegs hq
      refine ⟨leg, hleg, q, ?_, hdist⟩
      rcases hend with rfl | rfl
      · exact left_mem_segment ℝ _ _
      · exact right_mem_segment ℝ _ _
    · exact ⟨leg, hleg, q, hq, hdist⟩
  · rintro ⟨leg, hleg, h⟩
    exact h.mono (segment_subset_polyline hleg)

theorem dist_lineMap_sq (a b p : E) (t : ℝ) :
    dist p (a + t • (b - a)) ^ 2 =
      ‖p - a‖ ^ 2 - 2 * t * inner ℝ (p - a) (b - a) + t ^ 2 * ‖b - a‖ ^ 2 := by
  rw [dist_eq_norm, sub_add_eq_sub_sub, norm_sub_sq_real, inner_smul_right, norm_smul, mul_pow,
    Real.norm_eq_abs, sq_abs]
  ring

theorem foot_nearest {n : ℝ} (hn : 0 < n) (c u t : ℝ) : c - u ^ 2 / n ≤ c - 2 * t * u + t ^ 2 * n := by
  have hsquare : 0 ≤ (t * n - u) ^ 2 / n := div_nonneg (sq_nonneg _) hn.le
  have hexpand : (t * n - u) ^ 2 / n = t ^ 2 * n - 2 * t * u + u ^ 2 / n := by
    field_simp [hn.ne']
    ring
  linarith

theorem foot_attained {n : ℝ} (hn : n ≠ 0) (c u : ℝ) :
    c - 2 * (u / n) * u + (u / n) ^ 2 * n = c - u ^ 2 / n := by
  field_simp
  ring

theorem within_segment_iff {epsilon : ℝ} (hepsilon : 0 ≤ epsilon) {a b p : E} :
    Within epsilon p (segment ℝ a b) ↔
      ‖p - a‖ ^ 2 ≤ epsilon ^ 2 ∨ ‖p - b‖ ^ 2 ≤ epsilon ^ 2 ∨
        (a ≠ b ∧ 0 ≤ inner ℝ (p - a) (b - a) ∧ inner ℝ (p - a) (b - a) ≤ ‖b - a‖ ^ 2) ∧
          ‖p - a‖ ^ 2 - inner ℝ (p - a) (b - a) ^ 2 / ‖b - a‖ ^ 2 ≤ epsilon ^ 2 := by
  have hsq : ∀ q, dist p q ≤ epsilon ↔ dist p q ^ 2 ≤ epsilon ^ 2 := fun q =>
    (sq_le_sq₀ dist_nonneg hepsilon).symm
  have hends : ‖p - b‖ ^ 2 = ‖p - a‖ ^ 2 - 2 * inner ℝ (p - a) (b - a) + ‖b - a‖ ^ 2 := by
    simpa [dist_eq_norm] using dist_lineMap_sq a b p 1
  set u : ℝ := inner ℝ (p - a) (b - a)
  set n : ℝ := ‖b - a‖ ^ 2 with hn
  have hnonneg : 0 ≤ n := by positivity
  have hpos : a ≠ b → 0 < n := fun hne => by
    have hnorm : 0 < ‖b - a‖ := norm_pos_iff.mpr (sub_ne_zero.mpr hne.symm)
    positivity
  constructor
  · rintro ⟨q, hq, hdist⟩
    rw [segment_eq_image'] at hq
    obtain ⟨t, ⟨ht0, ht1⟩, rfl⟩ := hq
    rw [hsq, dist_lineMap_sq] at hdist
    by_cases hne : a = b
    · subst hne
      left
      simpa [u, n] using hdist
    rcases lt_or_ge u 0 with hlow | hlow
    · -- The foot falls before `a`.
      left
      nlinarith [mul_nonneg ht0 (neg_nonneg.mpr hlow.le), mul_nonneg (sq_nonneg t) hnonneg]
    rcases le_or_gt u n with hhigh | hhigh
    · right; right
      exact ⟨⟨hne, hlow, hhigh⟩, (foot_nearest (hpos hne) _ u t).trans hdist⟩
    · -- The foot falls behind `b`.
      right; left
      rw [hends]
      nlinarith [mul_nonneg (sub_nonneg.mpr ht1) (sub_nonneg.mpr hhigh.le),
        mul_nonneg (sq_nonneg (1 - t)) hnonneg]
  · rintro (h | h | ⟨⟨hne, hlow, hhigh⟩, h⟩)
    · exact ⟨a, left_mem_segment ℝ a b, by rwa [hsq, dist_eq_norm]⟩
    · exact ⟨b, right_mem_segment ℝ a b, by rwa [hsq, dist_eq_norm]⟩
    · refine ⟨a + (u / n) • (b - a), ?_, ?_⟩
      · rw [segment_eq_image']
        exact ⟨u / n, ⟨div_nonneg hlow hnonneg, (div_le_one (hpos hne)).mpr hhigh⟩, rfl⟩
      · rw [hsq, dist_lineMap_sq]
        exact le_of_eq_of_le (foot_attained (hpos hne).ne' _ u) h

end InnerProduct

end Polyline
