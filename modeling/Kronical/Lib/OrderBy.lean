import Mathlib.Data.List.Sort
import Mathlib.Data.List.TakeDrop

/-!
# Ordered selections

`ascending` and `descending` are `ORDER BY`. Where no two rows have one key there is only one order, so rows
that are found in any order are returned like the list of them that is ordered already.
-/

namespace OrderBy

variable {α κ : Type*} [LinearOrder κ] (key : α → κ)

/-- `ORDER BY key ASC` -/
def ascending (rows : List α) : List α := rows.insertionSort fun a b => key a ≤ key b

/-- `ORDER BY key DESC` -/
def descending (rows : List α) : List α := rows.insertionSort fun a b => key b ≤ key a

variable {key} {rows rows' sorted : List α}

theorem eq_of_sorted (hnodup : (rows.map key).Nodup) (hperm : rows.Perm rows')
    (h : rows.Pairwise fun a b => key a ≤ key b) (h' : rows'.Pairwise fun a b => key a ≤ key b) :
    rows = rows' := by
  refine List.Perm.eq_of_pairwise (fun a b ha hb hab hba => ?_) h h' hperm
  exact List.inj_on_of_nodup_map hnodup ha (hperm.mem_iff.mpr hb) (hab.antisymm hba)

theorem ascending_perm (rows : List α) : (ascending key rows).Perm rows := List.perm_insertionSort _ _

theorem descending_perm (rows : List α) : (descending key rows).Perm rows := List.perm_insertionSort _ _

theorem ascending_sorted (rows : List α) : (ascending key rows).Pairwise fun a b => key a ≤ key b :=
  haveI : Std.Total fun a b : α => key a ≤ key b := ⟨fun _ _ => le_total _ _⟩
  haveI : IsTrans α fun a b => key a ≤ key b := ⟨fun _ _ _ => le_trans⟩
  List.pairwise_insertionSort _ _

theorem descending_sorted (rows : List α) : (descending key rows).Pairwise fun a b => key b ≤ key a :=
  haveI : Std.Total fun a b : α => key b ≤ key a := ⟨fun _ _ => le_total _ _⟩
  haveI : IsTrans α fun a b => key b ≤ key a := ⟨fun _ _ _ hab hbc => hbc.trans hab⟩
  List.pairwise_insertionSort _ _

theorem ascending_eq (hperm : rows.Perm sorted) (h : sorted.Pairwise fun a b => key a < key b) :
    ascending key rows = sorted := by
  have hnodup : (sorted.map key).Nodup := List.pairwise_map.mpr (h.imp fun hab => hab.ne)
  have hall : (ascending key rows).Perm sorted := (ascending_perm rows).trans hperm
  exact eq_of_sorted ((hall.map key).nodup_iff.mpr hnodup) hall (ascending_sorted rows)
    (h.imp fun hab => hab.le)

theorem descending_eq_reverse (hnodup : (rows.map key).Nodup) :
    descending key rows = (ascending key rows).reverse := by
  have hperm : (descending key rows).reverse.Perm (ascending key rows) :=
    (List.reverse_perm _).trans ((descending_perm rows).trans (ascending_perm rows).symm)
  have hsame : (descending key rows).reverse = ascending key rows := by
    refine eq_of_sorted ?_ hperm (List.pairwise_reverse.mpr (descending_sorted rows)) (ascending_sorted rows)
    exact ((hperm.trans (ascending_perm rows)).map key).nodup_iff.mpr hnodup
  rw [← hsame, List.reverse_reverse]

theorem descending_eq (hperm : rows.Perm sorted) (h : sorted.Pairwise fun a b => key a < key b) :
    descending key rows = sorted.reverse := by
  have hnodup : (sorted.map key).Nodup := List.pairwise_map.mpr (h.imp fun hab => hab.ne)
  rw [descending_eq_reverse ((hperm.map key).nodup_iff.mpr hnodup), ascending_eq hperm h]

end OrderBy
