import Kronical.Lib.Picks
import Kronical.Pipeline.Simplify

/-!
# The split points of simplified paths

`douglas_peucker` with its faults: an access to an element or a slice may be out of bounds. A path is
split at an inner point only if the largest distance has been updated, which needs an `epsilon` that is not
below zero, or a positive distance everywhere. Then both parts are shorter than the path, no access is out
of bounds, and the points that are kept are at strictly increasing indexes (`douglas_peucker_picks`). With a
negative `epsilon` a path in a straight line is split at its first point forever.
-/

namespace Kronical.MouseTrajectoryCompressor

inductive Fault where
  | outOfBounds
  /-- The result of an `i32` operation does not fit. -/
  | overflow
  | outOfFuel
  deriving DecidableEq, Repr

universe u

variable {P D : Type u}

/-- `points[i]` -/
def index (points : List P) (i : Nat) : Except Fault P := (points[i]?).elim (.error .outOfBounds) .ok

/-- `&points[0..=last]` -/
def sliceTo (points : List P) (last : Nat) : Except Fault (List P) :=
  if last < points.length then .ok (points.take (last + 1)) else .error .outOfBounds

/-- `&points[start..]` -/
def sliceFrom (points : List P) (start : Nat) : Except Fault (List P) :=
  if start ≤ points.length then .ok (points.drop start) else .error .outOfBounds

section

variable [Zero D] [LT D] [DecidableLT D] (perpendicular : P → P → P → Except Fault D) (epsilon : D)

/-- One turn of the loop over the inner points, over `(max_distance, max_index)`. -/
def maxDistanceStep (points : List P) (best : D × Nat) (i : Nat) : Except Fault (D × Nat) := do
  let point ← index points i
  let lineStart ← index points 0
  let lineEnd ← index points (points.length - 1)
  let distance ← perpendicular point lineStart lineEnd
  if best.1 < distance then .ok (distance, i) else .ok best

/-- `for i in 1..points.len() - 1` -/
def maxDistance (points : List P) : Except Fault (D × Nat) :=
  (List.range' 1 (points.length - 2)).foldlM (maxDistanceStep perpendicular points) (0, 0)

/-- `douglas_peucker` with its faults; it ends after at most `fuel` nested calls. -/
def douglasPeuckerIndexed : Nat → List P → Except Fault (List P)
  | 0, _ => .error .outOfFuel
  | fuel + 1, points =>
    if points.length ≤ 2 then .ok points
    else do
      let best ← maxDistance perpendicular points
      if epsilon < best.1 then do
        let front ← sliceTo points best.2
        let left ← douglasPeuckerIndexed fuel front
        let back ← sliceFrom points best.2
        let right ← douglasPeuckerIndexed fuel back
        .ok (left.dropLast ++ right)
      else do
        let first ← index points 0
        let last ← index points (points.length - 1)
        .ok [first, last]

end

theorem index_of_lt {points : List P} {i : Nat} (h : i < points.length) :
    index points i = .ok points[i] := by
  rw [index, List.getElem?_eq_getElem h]
  rfl

/-- On the points the distance is computed without a fault. -/
def Computes (perpendicular : P → P → P → Except Fault D) (points : List P) (distance : P → P → P → D) :
    Prop :=
  ∀ p ∈ points, ∀ first ∈ points, ∀ last ∈ points, perpendicular p first last = .ok (distance p first last)

theorem computes_ok (distance : P → P → P → D) (points : List P) :
    Computes (fun p first last => .ok (distance p first last)) points distance :=
  fun _ _ _ _ _ _ => rfl

theorem Computes.mono {perpendicular : P → P → P → Except Fault D} {distance : P → P → P → D}
    {points points' : List P} (h : Computes perpendicular points distance) (hsub : points' ⊆ points) :
    Computes perpendicular points' distance :=
  fun p hp first hfirst last hlast => h p (hsub hp) first (hsub hfirst) last (hsub hlast)

section

variable [LT D] [DecidableLT D] {perpendicular : P → P → P → Except Fault D} {distance : P → P → P → D}
  {epsilon : D}

theorem maxDistanceStep_of_lt {points : List P} (h : Computes perpendicular points distance)
    {best : D × Nat} {i : Nat} (hi : i < points.length) :
    maxDistanceStep perpendicular points best i =
      .ok (if best.1 < distance points[i] points[0] points[points.length - 1] then
        (distance points[i] points[0] points[points.length - 1], i) else best) := by
  have hvalue := h points[i] (List.getElem_mem _) points[0] (List.getElem_mem _)
    points[points.length - 1] (List.getElem_mem _)
  rw [maxDistanceStep, index_of_lt hi, index_of_lt (Nat.zero_lt_of_lt hi), index_of_lt (by omega)]
  dsimp only [bind, Except.bind]
  rw [hvalue]
  dsimp only
  split_ifs <;> rfl

variable [Zero D]

theorem maxDistance_eq {first last : P} {inner : List P}
    (h : Computes perpendicular (first :: (inner ++ [last])) distance) :
    maxDistance perpendicular (first :: (inner ++ [last])) =
      .ok (farthest (distance · first last) inner) := by
  have hlength : (first :: (inner ++ [last])).length = inner.length + 2 := by simp
  have hloop : ∀ k, k ≤ inner.length →
      (List.range' 1 k).foldlM (maxDistanceStep perpendicular (first :: (inner ++ [last]))) (0, 0) =
        .ok (farthest (distance · first last) (inner.take k)) := by
    intro k hk
    induction k with
    | zero => rfl
    | succ k ih =>
      have hpoint : ∀ h : k + 1 < (first :: (inner ++ [last])).length,
          (first :: (inner ++ [last]))[k + 1] = inner[k] := by
        intro h
        rw [List.getElem_cons_succ, List.getElem_append_left]
      have hlast : ∀ h : (first :: (inner ++ [last])).length - 1 < (first :: (inner ++ [last])).length,
          (first :: (inner ++ [last]))[(first :: (inner ++ [last])).length - 1] = last := by
        intro h
        simp
      rw [List.range'_concat, List.foldlM_append, ih (by omega), List.take_succ_eq_append_getElem hk,
        farthest_concat, List.length_take_of_le (by omega)]
      dsimp only [bind, Except.bind]
      rw [List.foldlM_cons, Nat.one_mul, Nat.add_comm 1 k, maxDistanceStep_of_lt h (by omega), hpoint,
        hlast, List.getElem_cons_zero]
      rfl
  rw [maxDistance, hlength, Nat.add_sub_cancel, hloop _ le_rfl, List.take_length]

theorem split_inner (hsplit : epsilon < 0 → ∀ p first last, 0 < distance p first last) {first last : P}
    {inner : List P} (hinner : inner ≠ [])
    (hfar : epsilon < (farthest (distance · first last) inner).1) :
    1 ≤ (farthest (distance · first last) inner).2 ∧
      (farthest (distance · first last) inner).2 ≤ inner.length := by
  rcases farthest_updated (distance · first last) inner with ⟨hzero, hnone⟩ | hindex
  · rw [hzero] at hfar
    obtain ⟨p, hp⟩ := List.exists_mem_of_ne_nil inner hinner
    exact absurd (hsplit hfar p first last) (hnone p hp)
  · exact hindex

theorem douglasPeuckerIndexed_of_length {fuel : Nat} {first last : P} {inner : List P}
    (h : Computes perpendicular (first :: (inner ++ [last])) distance) (hinner : inner ≠ []) :
    douglasPeuckerIndexed perpendicular epsilon (fuel + 1) (first :: (inner ++ [last])) =
      if epsilon < (farthest (distance · first last) inner).1 then do
        let front ← sliceTo (first :: (inner ++ [last])) (farthest (distance · first last) inner).2
        let left ← douglasPeuckerIndexed perpendicular epsilon fuel front
        let back ← sliceFrom (first :: (inner ++ [last])) (farthest (distance · first last) inner).2
        let right ← douglasPeuckerIndexed perpendicular epsilon fuel back
        .ok (left.dropLast ++ right)
      else .ok [first, last] := by
  have hpos := List.length_pos_iff.mpr hinner
  have hlength : (first :: (inner ++ [last])).length = inner.length + 2 := by simp
  rw [douglasPeuckerIndexed, if_neg (by omega), maxDistance_eq h]
  dsimp only [bind, Except.bind]
  rw [index_of_lt (by omega), index_of_lt (by omega)]
  simp

theorem douglasPeuckerIndexed_spec
    (hsplit : epsilon < 0 → ∀ p first last, 0 < distance p first last) {points : List P}
    (h : Computes perpendicular points distance) :
    ∃ simplified indexes, Picked points simplified indexes ∧
      ∀ fuel, 0 < fuel → points.length ≤ fuel →
        douglasPeuckerIndexed perpendicular epsilon fuel points = .ok simplified ∧
          douglasPeucker distance epsilon fuel points = some simplified := by
  induction hn : points.length using Nat.strong_induction_on generalizing points with
  | _ n ih =>
    rcases Nat.lt_or_ge points.length 3 with hshort | hlong
    · refine ⟨points, _, Picked.all points, ?_⟩
      rintro (_ | fuel) hpos -
      · cases hpos
      refine ⟨if_pos (Nat.le_of_lt_succ hshort), ?_⟩
      match points, hshort with
      | [], _ | [_], _ | [_, _], _ => rfl
    obtain ⟨first, inner, last, hinner, rfl⟩ := eq_ends_of_length hlong
    have hlength : (first :: (inner ++ [last])).length = inner.length + 2 := by simp
    by_cases hfar : epsilon < (farthest (distance · first last) inner).1
    · -- The split point is an inner one, so both parts are shorter.
      obtain ⟨hpos, hle⟩ := split_inner hsplit hinner hfar
      generalize hi : (farthest (distance · first last) inner).2 = i at hpos hle
      have hfront : ((first :: (inner ++ [last])).take (i + 1)).length = i + 1 := by
        rw [List.length_take]
        omega
      have hback : ((first :: (inner ++ [last])).drop i).length = inner.length + 2 - i := by
        rw [List.length_drop, hlength]
      obtain ⟨left, is, hleft, hleftRun⟩ := ih _ (by omega) (h.mono (List.take_subset _ _)) hfront
      obtain ⟨right, js, hright, hrightRun⟩ := ih _ (by omega) (h.mono (List.drop_subset _ _)) hback
      refine ⟨left.dropLast ++ right, _, hleft.meet (by omega) hright, ?_⟩
      rintro (_ | fuel) hfuel hle'
      · cases hfuel
      obtain ⟨hleftIndexed, hleftRun⟩ := hleftRun fuel (by omega) (by omega)
      obtain ⟨hrightIndexed, hrightRun⟩ := hrightRun fuel (by omega) (by omega)
      constructor
      · rw [douglasPeuckerIndexed_of_length h hinner, if_pos hfar, hi, sliceTo, if_pos (by omega),
          sliceFrom, if_pos (by omega)]
        dsimp only [bind, Except.bind]
        rw [hleftIndexed, hrightIndexed]
      · rw [douglasPeucker_of_length hinner, if_pos hfar, hi, hleftRun, hrightRun]
        rfl
    · refine ⟨[first, last], _, Picked.ends first last inner, ?_⟩
      rintro (_ | fuel) hfuel -
      · cases hfuel
      rw [douglasPeuckerIndexed_of_length h hinner, douglasPeucker_of_length hinner, if_neg hfar,
        if_neg hfar]
      exact ⟨rfl, rfl⟩

end

/-- For every list of points, every distance and every `epsilon` that is not below zero, or any one where
every distance is positive: the recursion ends, no access is out of bounds, and what it returns are the
points at strictly increasing indexes from the first to the last. -/
theorem douglas_peucker_picks [Zero D] [LT D] [DecidableLT D] (distance : P → P → P → D) (epsilon : D)
    (hsplit : epsilon < 0 → ∀ p first last, 0 < distance p first last) (points : List P) :
    ∃ simplified indexes,
      (∀ fuel, 0 < fuel → points.length ≤ fuel →
        douglasPeuckerIndexed (fun p first last => .ok (distance p first last)) epsilon fuel points =
          .ok simplified) ∧
      Picked points simplified indexes ∧ (2 ≤ points.length → 2 ≤ simplified.length) := by
  obtain ⟨simplified, indexes, hpicked, hrun⟩ := douglasPeuckerIndexed_spec hsplit
    (computes_ok distance points)
  exact ⟨simplified, indexes, fun fuel hpos hfuel => (hrun fuel hpos hfuel).1, hpicked, hpicked.two_le⟩

/-- A path with a turn, of which two of three inner points are dropped. -/
theorem douglas_peucker_picks_turn : ∃ indexes, Picked ([0, 2, 9, 5, 1] : List Int) [0, 9, 1] indexes := by
  obtain ⟨simplified, indexes, hrun, hpicked, -⟩ := douglas_peucker_picks
    (fun p first last : Int => 2 * p - first - last) 4 (fun h => absurd h (by decide)) [0, 2, 9, 5, 1]
  have hsimplified : simplified = [0, 9, 1] :=
    (Except.ok.inj (hrun 5 (by decide) (by decide))).symm
  exact ⟨indexes, hsimplified ▸ hpicked⟩

/-- Three points at no distance from their line, with an `epsilon` of minus one: the first point is split
off, and what is left is the whole path again. -/
theorem douglas_peucker_never_ends :
    ¬ ∀ (distance : Int → Int → Int → Int) (epsilon : Int) (points : List Int),
      ∃ fuel simplified, douglasPeuckerIndexed (fun p first last => .ok (distance p first last)) epsilon
        fuel points = .ok simplified := by
  intro hclaim
  have hfault : ∀ fuel, douglasPeuckerIndexed (fun _ _ _ : Int => .ok 0) (-1 : Int) fuel [0, 1, 2] =
      .error .outOfFuel := by
    intro fuel
    induction fuel with
    | zero => rfl
    | succ fuel ih =>
      have hstep : douglasPeuckerIndexed (fun _ _ _ : Int => .ok 0) (-1 : Int) (fuel + 1) [0, 1, 2] =
          (do
            let left ← douglasPeuckerIndexed (fun _ _ _ : Int => .ok 0) (-1 : Int) fuel [0]
            let right ← douglasPeuckerIndexed (fun _ _ _ : Int => .ok 0) (-1 : Int) fuel [0, 1, 2]
            .ok (left.dropLast ++ right)) := rfl
      rw [hstep, ih]
      cases fuel <;> rfl
  obtain ⟨fuel, simplified, hrun⟩ := hclaim (fun _ _ _ => 0) (-1) [0, 1, 2]
  rw [hfault fuel] at hrun
  cases hrun

theorem simplifiedPath_spec {self : MouseTrajectoryCompressor} {first : MouseEvent} {rest : List MouseEvent}
    {perpendicular : MousePosition → MousePosition → MousePosition → Except Fault Rat}
    (kind : MouseTrajectoryType) (hepsilon : 0 ≤ self.douglasPeuckerEpsilonSq)
    (h : Computes perpendicular ((first :: rest).map (·.position)) perpendicularDistanceSq) :
    douglasPeuckerIndexed perpendicular self.douglasPeuckerEpsilonSq
        ((first :: rest).map (·.position)).length ((first :: rest).map (·.position)) =
      .ok (self.buildTrajectory first rest kind).simplifiedPath ∧
    ∃ indexes, Picked ((first :: rest).map (·.position))
      (self.buildTrajectory first rest kind).simplifiedPath indexes := by
  have hsplit : self.douglasPeuckerEpsilonSq < 0 →
      ∀ p first last, 0 < perpendicularDistanceSq p first last :=
    fun hneg => absurd hneg (not_lt.mpr hepsilon)
  obtain ⟨simplified, indexes, hpicked, hrun⟩ := douglasPeuckerIndexed_spec hsplit h
  obtain ⟨hindexed, hresult⟩ := hrun _ (by simp) le_rfl
  rw [simplifiedPath_eq kind hresult]
  exact ⟨hindexed, indexes, hpicked⟩

end Kronical.MouseTrajectoryCompressor
