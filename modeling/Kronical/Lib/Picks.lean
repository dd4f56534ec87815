import Mathlib.Data.List.Basic

/-!
# Elements at increasing indexes

Some elements of a list, in the list's order and each at most once: those at strictly increasing indexes,
from the first element to the last one. Where a list is cut at an element that both parts share, what is
picked of the parts makes up what is picked of the list (`Picked.meet`).
-/

variable {P : Type*}

/-- What is picked of the list is at these indexes. -/
structure Picked (points picked : List P) (indexes : List Nat) : Prop where
  increasing : indexes.Pairwise (· < ·)
  at_indexes : picked.map some = indexes.map (points[·]?)
  first : points ≠ [] → indexes.head? = some 0
  last : points ≠ [] → indexes.getLast? = some (points.length - 1)

namespace Picked

variable {points picked left right : List P} {indexes is js : List Nat} {i : Nat}

theorem length_eq (h : Picked points picked indexes) : indexes.length = picked.length := by
  have hlength := congrArg List.length h.at_indexes
  rw [List.length_map, List.length_map] at hlength
  exact hlength.symm

theorem lt_length (h : Picked points picked indexes) : ∀ i ∈ indexes, i < points.length := by
  intro i hi
  have hmem : points[i]? ∈ picked.map some := h.at_indexes ▸ List.mem_map_of_mem hi
  obtain ⟨p, -, hp⟩ := List.mem_map.mp hmem
  exact (List.getElem?_eq_some_iff.mp hp.symm).1

theorem all (points : List P) : Picked points points (List.range points.length) where
  increasing := List.pairwise_lt_range
  at_indexes := by
    refine List.ext_getElem (by simp) fun i hi _ => ?_
    rw [List.length_map] at hi
    simp [hi]
  first := by
    intro hne
    rw [List.head?_range, if_neg (mt List.length_eq_zero_iff.mp hne)]
  last := by
    intro hne
    rw [List.getLast?_range, if_neg (mt List.length_eq_zero_iff.mp hne)]

theorem ends (first last : P) (inner : List P) :
    Picked (first :: (inner ++ [last])) [first, last] [0, inner.length + 1] where
  increasing := by simp
  at_indexes := by simp
  first := fun _ => rfl
  last := fun _ => by simp

theorem two_le (h : Picked points picked indexes) (hlength : 2 ≤ points.length) : 2 ≤ picked.length := by
  have hne : points ≠ [] := by
    rintro rfl
    cases hlength
  have hfirst := h.first hne
  have hlast := h.last hne
  rw [← h.length_eq]
  match indexes with
  | [] => cases hfirst
  | [i] =>
    cases hfirst
    have heq : 0 = points.length - 1 := Option.some.inj hlast
    omega
  | _ :: _ :: _ => simp

/-- What is picked of two parts that share an element. -/
theorem meet (hi : i < points.length) (h : Picked (points.take (i + 1)) left is)
    (h' : Picked (points.drop i) right js) :
    Picked points (left.dropLast ++ right) (is.dropLast ++ js.map (· + i)) := by
  have hleft : points.take (i + 1) ≠ [] :=
    List.ne_nil_of_length_pos (by rw [List.length_take]; omega)
  have hright : points.drop i ≠ [] :=
    List.ne_nil_of_length_pos (by rw [List.length_drop]; omega)
  -- The shared element is the last one of the left part and the first one of the right part.
  obtain ⟨is, rfl⟩ : ∃ is', is = is' ++ [i] := by
    refine List.getLast?_eq_some_iff.mp ((h.last hleft).trans ?_)
    rw [List.length_take]
    exact congrArg some (by omega)
  obtain ⟨js, rfl⟩ : ∃ js', js = 0 :: js' := List.head?_eq_some_iff.mp (h'.first hright)
  have hlt := h.lt_length
  rw [List.dropLast_concat]
  obtain ⟨hincreasing, -, hbelow⟩ := List.pairwise_append.mp h.increasing
  constructor
  · refine List.pairwise_append.mpr ⟨hincreasing, ?_, ?_⟩
    · exact List.pairwise_map.mpr (h'.increasing.imp fun hjj' => Nat.add_lt_add_right hjj' i)
    · intro k hk j hj
      obtain ⟨j, -, rfl⟩ := List.mem_map.mp hj
      exact Nat.lt_add_left j (hbelow k hk i (List.mem_singleton_self i))
  · have hat := congrArg List.dropLast h.at_indexes
    rw [← List.map_dropLast, ← List.map_dropLast, List.dropLast_concat] at hat
    rw [List.map_append, List.map_append, hat, h'.at_indexes, List.map_map]
    refine congrArg₂ _ (List.map_congr_left fun k hk => ?_) (List.map_congr_left fun j _ => ?_)
    · have hk' := hlt k (List.mem_append_left _ hk)
      rw [List.length_take] at hk'
      exact List.getElem?_take_of_lt (by omega)
    · rw [List.getElem?_drop, Nat.add_comm]
      rfl
  · intro _
    have hfirst := h.first hleft
    cases is with
    | nil =>
      have hzero : i = 0 := Option.some.inj hfirst
      rw [hzero]
      rfl
    | cons k is => exact hfirst
  · intro _
    have hlast := congrArg (Option.map (· + i)) (h'.last hright)
    rw [List.getLast?_append_of_ne_nil _ (by simp), List.getLast?_map, hlast, List.length_drop]
    have hend : points.length - i - 1 + i = points.length - 1 := by omega
    exact congrArg some hend

end Picked
