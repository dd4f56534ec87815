import Kronical.Lib.Polyline
import Kronical.Pipeline.Compressor

/-!
# Path simplification

What the recursion of `douglas_peucker` keeps of a path, for any distance: the stretches that it leaves
unsplit, each of which it replaces with the chord between the stretch's end points.
-/

namespace Kronical.MouseTrajectoryCompressor

open Polyline

variable {P D : Type*}

/-! ### The farthest point -/

section Farthest

theorem farthest_concat [Zero D] [LT D] [DecidableLT D] (distance : P → D) (inner : List P) (last : P) :
    farthest distance (inner ++ [last]) =
      if (farthest distance inner).1 < distance last then (distance last, inner.length + 1)
      else farthest distance inner := by
  rw [farthest, farthest, List.zipIdx_append, List.foldl_append, Nat.add_comm]
  rfl

theorem farthest_updated [Zero D] [LT D] [DecidableLT D] (distance : P → D) (inner : List P) :
    farthest distance inner = (0, 0) ∧ (∀ p ∈ inner, ¬ 0 < distance p) ∨
      1 ≤ (farthest distance inner).2 ∧ (farthest distance inner).2 ≤ inner.length := by
  induction inner using List.reverseRecOn with
  | nil => exact Or.inl ⟨rfl, nofun⟩
  | append_singleton inner last ih =>
    rw [farthest_concat, List.length_append, List.length_singleton]
    split_ifs with hfarther
    · exact Or.inr ⟨Nat.le_add_left _ _, le_rfl⟩
    · rcases ih with ⟨hzero, hnone⟩ | ⟨hpos, hle⟩
      · refine Or.inl ⟨hzero, ?_⟩
        intro p hp
        rcases List.mem_append.mp hp with hp | hp
        · exact hnone p hp
        · rw [List.mem_singleton.mp hp]
          rwa [hzero] at hfarther
      · exact Or.inr ⟨hpos, Nat.le_succ_of_le hle⟩

variable [Zero D] [LinearOrder D] (distance : P → D)

theorem farthest_spec (inner : List P) :
    (∀ p ∈ inner, distance p ≤ (farthest distance inner).1) ∧
      (0 < (farthest distance inner).1 →
        1 ≤ (farthest distance inner).2 ∧ (farthest distance inner).2 ≤ inner.length) := by
  constructor
  · induction inner using List.reverseRecOn with
    | nil => exact nofun
    | append_singleton inner last ih =>
      intro p hp
      rw [farthest_concat]
      split_ifs with hfarther
      · rcases List.mem_append.mp hp with hp | hp
        · exact (ih p hp).trans hfarther.le
        · rw [List.mem_singleton.mp hp]
      · rcases List.mem_append.mp hp with hp | hp
        · exact ih p hp
        · rw [List.mem_singleton.mp hp]
          exact not_lt.mp hfarther
  · intro hpos
    rcases farthest_updated distance inner with ⟨hzero, -⟩ | hindex
    · rw [hzero] at hpos
      exact absurd hpos (lt_irrefl _)
    · exact hindex

variable {distance} in
theorem farthest_le {epsilon : D} (hepsilon : 0 ≤ epsilon) {inner : List P}
    (h : ∀ p ∈ inner, distance p ≤ epsilon) : (farthest distance inner).1 ≤ epsilon := by
  induction inner using List.reverseRecOn with
  | nil => exact hepsilon
  | append_singleton inner last ih =>
    obtain ⟨hinner, hlast⟩ := List.forall_mem_append.mp h
    rw [farthest_concat]
    split_ifs
    · exact hlast last (List.mem_singleton_self _)
    · exact ih hinner

end Farthest

/-! ### Stretches -/

/-- A part of a path that is replaced with its chord. -/
structure Stretch (P : Type*) where
  first : P
  inner : List P
  last : P
  deriving DecidableEq, Repr

/-- All points of the stretch. -/
def Stretch.points (s : Stretch P) : List P := s.first :: (s.inner ++ [s.last])

/-- The chord of the stretch. -/
def Stretch.chord (s : Stretch P) : P × P := (s.first, s.last)

/-- The chords of the stretches are the legs of the simplified path, which keeps the ends of the path;
the stretches are parts of the path, and the points inside them are those that it does not keep. -/
structure Simplifies (stretches : List (Stretch P)) (points simplified : List P) : Prop where
  head : simplified.head? = points.head?
  last : simplified.getLast? = points.getLast?
  legs : legs simplified = stretches.map Stretch.chord
  covers : ∀ p ∈ points, p ∈ simplified ∨ ∃ s ∈ stretches, p ∈ s.inner
  parts : ∀ s ∈ stretches, s.points <:+: points

theorem simplifies_chord (first last : P) (inner : List P) :
    Simplifies [⟨first, inner, last⟩] (first :: (inner ++ [last])) [first, last] where
  head := rfl
  last := by
    rw [← List.cons_append, List.getLast?_concat]
    rfl
  legs := rfl
  covers := by
    intro p hp
    rcases List.mem_cons.mp hp with rfl | hp
    · exact Or.inl List.mem_cons_self
    rcases List.mem_append.mp hp with hp | hp
    · exact Or.inr ⟨_, List.mem_singleton_self _, hp⟩
    · exact Or.inl (List.mem_cons_of_mem _ hp)
  parts := by
    intro s hs
    rw [List.mem_singleton.mp hs]
    exact List.infix_rfl

/-- The simplifications of two paths that meet in a point meet in it. -/
theorem Simplifies.meet {stretches stretches' : List (Stretch P)} {front back left right : List P}
    {p : P} (h : Simplifies stretches (front ++ [p]) left)
    (h' : Simplifies stretches' (p :: back) right) :
    Simplifies (stretches ++ stretches') (front ++ p :: back) (left.dropLast ++ right) := by
  obtain ⟨left, rfl⟩ : ∃ left', left = left' ++ [p] :=
    List.getLast?_eq_some_iff.mp (h.last.trans (by simp))
  obtain ⟨right, rfl⟩ : ∃ right', right = p :: right' :=
    List.head?_eq_some_iff.mp h'.head
  rw [List.dropLast_concat]
  have hhead := h.head
  have hlast := h'.last
  constructor
  · cases left <;> cases front <;> simp_all
  · rw [List.getLast?_append_of_ne_nil _ (List.cons_ne_nil _ _),
      List.getLast?_append_of_ne_nil _ (List.cons_ne_nil _ _), hlast]
  · rw [legs_meet, h.legs, h'.legs, List.map_append]
  · intro q hq
    have hmem : q ∈ front ++ [p] ∨ q ∈ p :: back := by
      simp only [List.mem_append, List.mem_cons, List.not_mem_nil, or_false] at hq ⊢
      tauto
    rcases hmem with hq | hq
    · rcases h.covers q hq with hq | ⟨s, hs, hq⟩
      · left
        simp only [List.mem_append, List.mem_cons, List.not_mem_nil, or_false] at hq ⊢
        tauto
      · exact Or.inr ⟨s, List.mem_append_left _ hs, hq⟩
    · rcases h'.covers q hq with hq | ⟨s, hs, hq⟩
      · exact Or.inl (List.mem_append_right _ hq)
      · exact Or.inr ⟨s, List.mem_append_right _ hs, hq⟩
  · intro s hs
    rcases List.mem_append.mp hs with hs | hs
    · exact (h.parts s hs).trans ⟨[], back, by simp⟩
    · exact (h'.parts s hs).trans (List.suffix_append _ _).isInfix

/-! ### The recursion -/

theorem eq_ends_of_length {points : List P} (h : 3 ≤ points.length) :
    ∃ first inner last, inner ≠ [] ∧ points = first :: (inner ++ [last]) := by
  match points with
  | first :: second :: third :: rest =>
    refine ⟨first, second :: (third :: rest).dropLast, (third :: rest).getLast (List.cons_ne_nil _ _),
      List.cons_ne_nil _ _, ?_⟩
    rw [List.cons_append, List.dropLast_append_getLast]

theorem ends_of_inner (first last : P) {inner : List P} (h : inner ≠ []) :
    ∃ second third rest, first :: (inner ++ [last]) = first :: second :: third :: rest ∧
      (first :: second :: third :: rest).getLast? = some last ∧
      (first :: second :: third :: rest).tail.dropLast = inner := by
  obtain ⟨second, inner, rfl⟩ := List.exists_cons_of_ne_nil h
  obtain ⟨third, rest, heq⟩ : ∃ third rest, inner ++ [last] = third :: rest :=
    List.exists_cons_of_ne_nil (List.concat_ne_nil _ _)
  refine ⟨second, third, rest, by rw [List.cons_append, heq], ?_, ?_⟩
  · rw [← heq, List.getLast?_cons, List.getLast?_cons, List.getLast?_concat]
    rfl
  · rw [← heq, List.tail_cons, ← List.cons_append, List.dropLast_concat]

theorem douglasPeucker_of_length [Zero D] [LT D] [DecidableLT D] {distance : P → P → P → D} {epsilon : D}
    {fuel : Nat} {first last : P} {inner : List P} (h : inner ≠ []) :
    douglasPeucker distance epsilon (fuel + 1) (first :: (inner ++ [last])) =
      if epsilon < (farthest (distance · first last) inner).1 then do
        let left ← douglasPeucker distance epsilon fuel
          ((first :: (inner ++ [last])).take ((farthest (distance · first last) inner).2 + 1))
        let right ← douglasPeucker distance epsilon fuel
          ((first :: (inner ++ [last])).drop (farthest (distance · first last) inner).2)
        some (left.dropLast ++ right)
      else some [first, last] := by
  obtain ⟨second, third, rest, heq, hlast, htail⟩ := ends_of_inner first last h
  rw [heq]
  simp only [douglasPeucker, hlast, htail]

section Recursion

variable [Zero D] [LinearOrder D] (distance : P → P → P → D) (epsilon : D)

/-- The stretches that the recursion leaves unsplit. -/
def unsplit : Nat → List P → List (Stretch P)
  | 0, _ => []
  | fuel + 1, points =>
    match points, points.getLast? with
    | first :: _ :: _ :: _, some last =>
      let best := farthest (distance · first last) points.tail.dropLast
      if epsilon < best.1 then
        unsplit fuel (points.take (best.2 + 1)) ++ unsplit fuel (points.drop best.2)
      else
        [⟨first, points.tail.dropLast, last⟩]
    | [first, second], _ => [⟨first, [], second⟩]
    | _, _ => []

variable {distance epsilon}

theorem unsplit_of_length {fuel : Nat} {first last : P} {inner : List P} (h : inner ≠ []) :
    unsplit distance epsilon (fuel + 1) (first :: (inner ++ [last])) =
      if epsilon < (farthest (distance · first last) inner).1 then
        unsplit distance epsilon fuel
            ((first :: (inner ++ [last])).take ((farthest (distance · first last) inner).2 + 1)) ++
          unsplit distance epsilon fuel
            ((first :: (inner ++ [last])).drop (farthest (distance · first last) inner).2)
      else [⟨first, inner, last⟩] := by
  obtain ⟨second, third, rest, heq, hlast, htail⟩ := ends_of_inner first last h
  rw [heq]
  simp only [unsplit, hlast, htail]

/-- Every inner point of a stretch has a distance of at most `epsilon`. -/
def Kept (distance : P → P → P → D) (epsilon : D) (s : Stretch P) : Prop :=
  ∀ p ∈ s.inner, distance p s.first s.last ≤ epsilon

theorem douglasPeucker_simplifies (hepsilon : 0 ≤ epsilon) {fuel : Nat} {points : List P}
    (hne : points ≠ []) (hfuel : points.length ≤ fuel) :
    ∃ simplified, douglasPeucker distance epsilon fuel points = some simplified ∧
      Simplifies (unsplit distance epsilon fuel points) points simplified ∧
      ∀ s ∈ unsplit distance epsilon fuel points, Kept distance epsilon s := by
  induction fuel generalizing points with
  | zero => exact absurd (List.length_eq_zero_iff.mp (Nat.le_zero.mp hfuel)) hne
  | succ fuel ih =>
    rcases Nat.lt_or_ge points.length 3 with hshort | hlong
    · match points, hshort with
      | [p], _ => exact ⟨[p], rfl, ⟨rfl, rfl, rfl, fun q hq => Or.inl hq, nofun⟩, nofun⟩
      | [p, q], _ =>
        refine ⟨[p, q], rfl, simplifies_chord p q [], ?_⟩
        intro s hs
        rw [List.mem_singleton.mp hs]
        exact nofun
    · obtain ⟨first, inner, last, hinner, rfl⟩ := eq_ends_of_length hlong
      obtain ⟨hbound, hindex⟩ := farthest_spec (distance · first last) inner
      rw [douglasPeucker_of_length hinner, unsplit_of_length hinner]
      split_ifs with hfar
      · -- The split point is an inner one, so both parts are shorter.
        obtain ⟨hpos, hle⟩ := hindex (hepsilon.trans_lt hfar)
        generalize (farthest (distance · first last) inner).2 = i at hpos hle
        have hlength : (first :: (inner ++ [last])).length = inner.length + 2 := by simp
        generalize first :: (inner ++ [last]) = points at hfuel hlength hne
        have hi : i < points.length := by omega
        have htake : points.take (i + 1) = points.take i ++ [points[i]] :=
          (List.take_concat_get' points i hi).symm
        have hdrop : points.drop i = points[i] :: points.drop (i + 1) :=
          List.drop_eq_getElem_cons hi
        obtain ⟨left, hleft, hsimplifies, hkept⟩ := ih
          (show points.take (i + 1) ≠ [] by rw [htake]; exact List.concat_ne_nil _ _)
          (by rw [List.length_take]; omega)
        obtain ⟨right, hright, hsimplifies', hkept'⟩ := ih
          (show points.drop i ≠ [] by rw [hdrop]; exact List.cons_ne_nil _ _)
          (by rw [List.length_drop]; omega)
        refine ⟨left.dropLast ++ right, by rw [hleft, hright]; rfl, ?_, ?_⟩
        · have hmeet := (htake ▸ hsimplifies).meet (hdrop ▸ hsimplifies')
          rwa [← hdrop, List.take_append_drop, ← htake] at hmeet
        · intro s hs
          exact (List.mem_append.mp hs).elim (hkept s) (hkept' s)
      · refine ⟨_, rfl, simplifies_chord first last inner, ?_⟩
        intro s hs p hp
        rw [List.mem_singleton.mp hs] at hp ⊢
        exact (hbound p hp).trans (not_lt.mp hfar)

end Recursion

theorem simplifiedPath_eq {self : MouseTrajectoryCompressor} {first : MouseEvent} {rest : List MouseEvent}
    {simplified : List MousePosition} (kind : MouseTrajectoryType)
    (h : douglasPeucker perpendicularDistanceSq self.douglasPeuckerEpsilonSq
      ((first :: rest).map (·.position)).length ((first :: rest).map (·.position)) = some simplified) :
    (self.buildTrajectory first rest kind).simplifiedPath = simplified := by
  rw [buildTrajectory]
  dsimp only
  rw [h]
  rfl

end Kronical.MouseTrajectoryCompressor
