import Mathlib.Analysis.InnerProductSpace.PiL2
import Kronical.Pipeline.Simplify

/-!
# The tolerance of simplified paths

`douglas_peucker` measures how far a point is from the line through the end points of its stretch, and
keeps the chord between them. The chord is as near as the line as long as the foot of the perpendicular
from the point falls between its ends. A point beyond them is not measured against the chord, and no
point is where the ends coincide. A path and its stretches keep to the tolerance exactly if none of the
stretches that lie along a line in this sense goes further than its chord
(`simplified_within_tolerance_iff`).
-/

namespace Kronical

open Polyline

/-- The position as a point of the plane. -/
noncomputable def toPlane (p : MousePosition) : EuclideanSpace ℝ (Fin 2) := !₂[(p.x : ℝ), (p.y : ℝ)]

namespace MouseTrajectoryCompressor

/-! ### Distances of positions -/

/-- The inner product of the movements from `a` to `p` and from `a` to `b`. -/
def along (p a b : MousePosition) : Int := (p.x - a.x) * (b.x - a.x) + (p.y - a.y) * (b.y - a.y)

/-- The foot of the perpendicular from `p` falls on the segment from `a` to `b`. -/
def FallsOn (p a b : MousePosition) : Prop :=
  a ≠ b ∧ 0 ≤ along p a b ∧ along p a b ≤ calculateDistanceSq a b

instance (p a b : MousePosition) : Decidable (FallsOn p a b) := inferInstanceAs (Decidable (_ ∧ _))

/-- The square of the tolerance bounds the squared distance of `p` from `a`, from `b`, or from the line
between them that the foot of the perpendicular falls on. -/
def Near (epsilonSq : Rat) (p a b : MousePosition) : Prop :=
  calculateDistanceSq a p ≤ epsilonSq ∨ calculateDistanceSq b p ≤ epsilonSq ∨
    FallsOn p a b ∧ perpendicularDistanceSq p a b ≤ epsilonSq

instance (epsilonSq : Rat) (p a b : MousePosition) : Decidable (Near epsilonSq p a b) :=
  inferInstanceAs (Decidable (_ ∨ _))

theorem toPlane_injective : Function.Injective toPlane := by
  intro p q h
  have hx : ((p.x : Int) : ℝ) = q.x := congrArg (fun v : EuclideanSpace ℝ (Fin 2) => v 0) h
  have hy : ((p.y : Int) : ℝ) = q.y := congrArg (fun v : EuclideanSpace ℝ (Fin 2) => v 1) h
  cases p; cases q
  simp_all

theorem norm_toPlane_sub (a p : MousePosition) :
    ‖toPlane p - toPlane a‖ ^ 2 = (calculateDistanceSq a p : ℝ) := by
  rw [EuclideanSpace.norm_sq_eq]
  simp [toPlane, calculateDistanceSq, Fin.sum_univ_two, sq]

theorem inner_toPlane_sub (p a b : MousePosition) :
    inner ℝ (toPlane p - toPlane a) (toPlane b - toPlane a) = (along p a b : ℝ) := by
  rw [PiLp.inner_apply]
  simp [toPlane, along, Fin.sum_univ_two, mul_comm]

theorem calculateDistanceSq_eq_zero_iff {a b : MousePosition} :
    calculateDistanceSq a b = 0 ↔ a = b := by
  have hnorm := norm_toPlane_sub a b
  constructor
  · intro h
    rw [h, Int.cast_zero, sq_eq_zero_iff, norm_eq_zero, sub_eq_zero] at hnorm
    exact (toPlane_injective hnorm).symm
  · rintro rfl
    simp [calculateDistanceSq]

theorem perpendicularDistanceSq_eq {p a b : MousePosition} (hne : a ≠ b) :
    perpendicularDistanceSq p a b =
      calculateDistanceSq a p - (along p a b : Rat) ^ 2 / calculateDistanceSq a b := by
  have hdenominator : (b.y - a.y) * (b.y - a.y) + (a.x - b.x) * (a.x - b.x) =
      calculateDistanceSq a b := by
    unfold calculateDistanceSq
    ring
  have hpos : calculateDistanceSq a b ≠ 0 := fun h => hne (calculateDistanceSq_eq_zero_iff.mp h)
  -- The identity of Lagrange.
  have hlagrange : ((b.y - a.y) * p.x + (a.x - b.x) * p.y + (b.x * a.y - a.x * b.y)) *
        ((b.y - a.y) * p.x + (a.x - b.x) * p.y + (b.x * a.y - a.x * b.y)) =
      calculateDistanceSq a p * calculateDistanceSq a b - along p a b ^ 2 := by
    unfold calculateDistanceSq along
    ring
  have hcast : (calculateDistanceSq a b : Rat) ≠ 0 := by exact_mod_cast hpos
  simp only [perpendicularDistanceSq]
  rw [hdenominator, hlagrange, if_neg hpos, Int.cast_sub, Int.cast_mul, Int.cast_pow, sub_div,
    mul_div_cancel_right₀ _ hcast]

theorem within_segment_iff_near {epsilon : Rat} (hepsilon : 0 ≤ epsilon) (p a b : MousePosition) :
    Within (epsilon : ℝ) (toPlane p) (segment ℝ (toPlane a) (toPlane b)) ↔ Near (epsilon ^ 2) p a b := by
  have hbound : ∀ r : Rat, (r : ℝ) ≤ (epsilon : ℝ) ^ 2 ↔ r ≤ epsilon ^ 2 := fun r => by
    exact_mod_cast Iff.rfl
  have hint : ∀ n : Int, ((n : Rat) : ℝ) = n := fun n => Rat.cast_intCast n
  rw [within_segment_iff (Rat.cast_nonneg.mpr hepsilon), norm_toPlane_sub, norm_toPlane_sub,
    norm_toPlane_sub, inner_toPlane_sub, toPlane_injective.ne_iff, ← hint, hbound, ← hint, hbound]
  refine or_congr_right (or_congr_right ?_)
  have hfalls : (a ≠ b ∧ 0 ≤ (along p a b : ℝ) ∧ (along p a b : ℝ) ≤ calculateDistanceSq a b) ↔
      FallsOn p a b :=
    and_congr_right' (and_congr (by exact_mod_cast Iff.rfl) (by exact_mod_cast Iff.rfl))
  rw [hint, hfalls]
  refine and_congr_right fun ⟨hne, _⟩ => ?_
  rw [perpendicularDistanceSq_eq hne, ← hbound]
  push_cast
  rfl

/-! ### The tolerance -/

/-- By the distance of the code all inner points are within the tolerance of the line between the ends. -/
def AlongLine (epsilonSq : Rat) (s : Stretch MousePosition) : Prop := Kept perpendicularDistanceSq epsilonSq s

instance (epsilonSq : Rat) (s : Stretch MousePosition) : Decidable (AlongLine epsilonSq s) :=
  inferInstanceAs (Decidable (∀ p ∈ s.inner, _ ≤ epsilonSq))

/-- Where a stretch of the path lies along the line between its ends, its points are within the tolerance of
the chord. -/
def KeepsToChords (epsilonSq : Rat) (points : List MousePosition) : Prop :=
  ∀ s : Stretch MousePosition, s.points <:+: points → AlongLine epsilonSq s →
    ∀ p ∈ s.inner, Near epsilonSq p s.first s.last

theorem KeepsToChords.stretch {epsilonSq : Rat} {points part : List MousePosition}
    (h : KeepsToChords epsilonSq points) (hpart : part <:+: points) : KeepsToChords epsilonSq part :=
  fun s hs => h s (hs.trans hpart)

/-- Every point of the path lies within the tolerance of the polyline through what the recursion
returns. -/
def WithinTolerance (epsilon : Rat) (points : List MousePosition) : Prop :=
  ∃ simplified, douglasPeucker perpendicularDistanceSq (epsilon ^ 2) points.length points = some simplified ∧
    ∀ p ∈ points, Within (epsilon : ℝ) (toPlane p) (polyline (simplified.map toPlane))

theorem withinTolerance_of_keepsToChords {epsilon : Rat} (hepsilon : 0 ≤ epsilon)
    {points : List MousePosition} (hne : points ≠ []) (h : KeepsToChords (epsilon ^ 2) points) :
    WithinTolerance epsilon points := by
  obtain ⟨simplified, hresult, hsimplifies, hkept⟩ :=
    douglasPeucker_simplifies (sq_nonneg epsilon) hne (le_refl points.length)
  refine ⟨simplified, hresult, fun p hp => ?_⟩
  rcases hsimplifies.covers p hp with hp | ⟨s, hs, hp⟩
  · exact within_of_mem (Rat.cast_nonneg.mpr hepsilon) (Or.inl (List.mem_map_of_mem hp))
  · have hnear := h s (hsimplifies.parts s hs) (hkept s hs) p hp
    have hleg : (toPlane s.first, toPlane s.last) ∈ legs (simplified.map toPlane) := by
      rw [legs_map, hsimplifies.legs]
      exact List.mem_map_of_mem (f := Prod.map toPlane toPlane) (List.mem_map_of_mem hs)
    exact ((within_segment_iff_near hepsilon p _ _).mpr hnear).mono (segment_subset_polyline hleg)

theorem douglasPeucker_of_alongLine {epsilonSq : Rat} (hepsilon : 0 ≤ epsilonSq)
    {s : Stretch MousePosition} (h : AlongLine epsilonSq s) :
    douglasPeucker perpendicularDistanceSq epsilonSq s.points.length s.points = some [s.first, s.last] := by
  obtain ⟨first, inner, last⟩ := s
  by_cases hinner : inner = []
  · subst hinner
    rfl
  · rw [Stretch.points, List.length_cons, douglasPeucker_of_length hinner, if_neg (not_lt.mpr ?_)]
    exact farthest_le hepsilon h

theorem near_of_withinTolerance {epsilon : Rat} (hepsilon : 0 ≤ epsilon) {s : Stretch MousePosition}
    (hline : AlongLine (epsilon ^ 2) s) (h : WithinTolerance epsilon s.points) :
    ∀ p ∈ s.inner, Near (epsilon ^ 2) p s.first s.last := by
  obtain ⟨simplified, hresult, hwithin⟩ := h
  rw [douglasPeucker_of_alongLine (sq_nonneg epsilon) hline] at hresult
  obtain rfl := Option.some.inj hresult
  intro p hp
  have hpath := hwithin p (List.mem_cons_of_mem _ (List.mem_append_left _ hp))
  obtain ⟨leg, hleg, hnear⟩ := (within_polyline_iff (by simp)).mp hpath
  rw [List.mem_singleton.mp hleg] at hnear
  exact (within_segment_iff_near hepsilon p _ _).mp hnear

end MouseTrajectoryCompressor

open MouseTrajectoryCompressor in
/-- For every tolerance and every path of one point or more: if no stretch that lies along the line between
its ends goes further than its chord, every point lies within the tolerance of the polyline through the
points that the recursion returns, and through the simplified path of a trajectory; and that is so of the
path and all its stretches only if none does. -/
theorem simplified_within_tolerance_iff (epsilon : Rat) (hepsilon : 0 ≤ epsilon)
    (points : List MousePosition) (hne : points ≠ []) :
    (KeepsToChords (epsilon ^ 2) points → WithinTolerance epsilon points ∧
      ∀ (self : MouseTrajectoryCompressor) (first : MouseEvent) (rest : List MouseEvent)
        (kind : MouseTrajectoryType), self.douglasPeuckerEpsilonSq = epsilon ^ 2 →
        points = (first :: rest).map (·.position) → ∀ p ∈ points, Within (epsilon : ℝ) (toPlane p)
          (polyline ((self.buildTrajectory first rest kind).simplifiedPath.map toPlane))) ∧
      ((∀ part, part <:+: points → part ≠ [] → WithinTolerance epsilon part) ↔
        KeepsToChords (epsilon ^ 2) points) := by
  refine ⟨fun hkeeps => ?_, fun hall s hs hline => ?_, fun hkeeps part hpart hpartNe => ?_⟩
  · obtain ⟨simplified, hresult, hwithin⟩ := withinTolerance_of_keepsToChords hepsilon hne hkeeps
    refine ⟨⟨simplified, hresult, hwithin⟩, ?_⟩
    rintro self first rest kind hself rfl
    rw [← hself] at hresult
    rwa [simplifiedPath_eq kind hresult]
  · exact near_of_withinTolerance hepsilon hline (hall s.points hs (List.cons_ne_nil _ _))
  · exact withinTolerance_of_keepsToChords hepsilon hpartNe (hkeeps.stretch hpart)

open MouseTrajectoryCompressor in
/-- A path that wanders by a pixel. -/
theorem simplified_within_tolerance_straight :
    WithinTolerance 2 [⟨0, 0⟩, ⟨50, 1⟩, ⟨100, 0⟩] := by
  refine ((simplified_within_tolerance_iff 2 (by decide) [⟨0, 0⟩, ⟨50, 1⟩, ⟨100, 0⟩] (by decide)).1 ?_).1
  -- The only stretch with an inner point is the whole path.
  rintro ⟨first, inner, last⟩ hpart - p hp
  obtain ⟨q, inner, rfl⟩ := List.exists_cons_of_ne_nil (List.ne_nil_of_mem hp)
  have heq := hpart.eq_of_length_le (by simp [Stretch.points])
  simp only [Stretch.points, List.cons_append, List.cons.injEq] at heq
  obtain ⟨rfl, rfl, htail⟩ := heq
  cases inner with
  | nil =>
    simp only [List.nil_append, List.cons.injEq, and_true] at htail
    obtain rfl := htail
    rw [List.mem_singleton.mp hp]
    decide +kernel
  | cons r inner => exact absurd htail (by simp)

open MouseTrajectoryCompressor in
/-- The path goes a hundred pixels away and comes back: only its ends are kept, which coincide. -/
theorem closed_path_loses_turn :
    ¬ WithinTolerance 2 [⟨0, 0⟩, ⟨100, 0⟩, ⟨0, 0⟩] := by
  intro hwithin
  have hturn := near_of_withinTolerance (s := ⟨⟨0, 0⟩, [⟨100, 0⟩], ⟨0, 0⟩⟩) (by decide) (by decide) hwithin
  exact absurd (hturn ⟨100, 0⟩ (List.mem_singleton_self _)) (by decide)

end Kronical
