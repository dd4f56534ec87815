import Mathlib.Data.List.Sort
import Mathlib.Data.String.Basic
import Kronical.Core.Snapshot

/-!
# The storage backends

What the daemon reads back at its start: the records and the transitions that a retention period
still covers, as the two backends select them. DuckDB compares stored instants as timestamps, SQLite
compares their RFC 3339 texts; otherwise the queries are the same.
-/

namespace Kronical

inductive Backend
  | duckdb
  | sqlite
  deriving DecidableEq, Repr

namespace Backend

section

variable (toRfc3339 : DateTime → String)

/-- `a <= b` of two stored instants. -/
def le : Backend → DateTime → DateTime → Bool
  | .duckdb, a, b => a ≤ b
  | .sqlite, a, b => toRfc3339 a ≤ toRfc3339 b

/-- The `WHERE` of `fetch_recent_transitions`. -/
def transitionMatches (self : Backend) (since : DateTime) (runId : Option String)
    (transition : Transition) : Bool :=
  self.le toRfc3339 since transition.atTime && runId.all fun id => transition.runId = some id

/-- The rows after `since`, the newest first, and of these the first `limit` ones. -/
def fetchRecentTransitions (self : Backend) (rows : List Transition) (since : DateTime)
    (runId : Option String) (limit : Nat) : List Transition :=
  ((rows.filter (self.transitionMatches toRfc3339 since runId)).insertionSort fun t u =>
    self.le toRfc3339 u.atTime t.atTime).take limit

/-- The `WHERE` of `fetch_records_since`. -/
def recordMatches (self : Backend) (since : DateTime) (runId : Option String)
    (record : ActivityRecord) : Bool :=
  record.endTime.all (self.le toRfc3339 since) && runId.all fun id => record.runId = some id

/-- The rows that had not ended before `since`, by start time. -/
def fetchRecordsSince (self : Backend) (rows : List ActivityRecord) (since : DateTime)
    (runId : Option String) : List ActivityRecord :=
  (rows.filter (self.recordMatches toRfc3339 since runId)).insertionSort fun r s =>
    self.le toRfc3339 r.startTime s.startTime

variable {toRfc3339}

theorem trans_le {self : Backend} {a b c : DateTime} (hab : self.le toRfc3339 a b = true)
    (hbc : self.le toRfc3339 b c = true) : self.le toRfc3339 a c = true := by
  cases self <;> simp only [le, decide_eq_true_eq] at hab hbc ⊢
  · exact Int.le_trans hab hbc
  · exact hab.trans hbc

theorem total_le (self : Backend) (a b : DateTime) :
    (self.le toRfc3339 a b || self.le toRfc3339 b a) = true := by
  cases self <;> simp only [le, Bool.or_eq_true, decide_eq_true_eq]
  · exact Int.le_total a b
  · exact le_total ..

/-- The texts of the stored instants are ordered as the instants are. -/
def Chronological (toRfc3339 : DateTime → String) (instants : List DateTime) : Prop :=
  ∀ a ∈ instants, ∀ b ∈ instants, toRfc3339 a ≤ toRfc3339 b ↔ a ≤ b

instance (instants : List DateTime) : Decidable (Chronological toRfc3339 instants) :=
  inferInstanceAs (Decidable (∀ a ∈ instants, ∀ b ∈ instants, toRfc3339 a ≤ toRfc3339 b ↔ a ≤ b))

theorem le_iff {self : Backend} {instants : List DateTime}
    (h : self = .sqlite → Chronological toRfc3339 instants) {a b : DateTime} (ha : a ∈ instants)
    (hb : b ∈ instants) : self.le toRfc3339 a b = true ↔ a ≤ b := by
  cases self <;> simp only [le, decide_eq_true_eq]
  exact h rfl a ha b hb

theorem fetchRecentTransitions_sorted {self : Backend} {rows : List Transition}
    (hrows : self = .sqlite → Chronological toRfc3339 (rows.map (·.atTime)))
    (hdistinct : rows.Pairwise fun t u => t.atTime ≠ u.atTime) (since : DateTime)
    (runId : Option String) (limit : Nat) :
    (self.fetchRecentTransitions toRfc3339 rows since runId limit).Pairwise fun t u =>
      u.atTime < t.atTime := by
  let matched := rows.filter (self.transitionMatches toRfc3339 since runId)
  let le := fun t u : Transition => self.le toRfc3339 u.atTime t.atTime = true
  have htrans : IsTrans Transition le := ⟨fun _ _ _ hab hbc => trans_le hbc hab⟩
  have htotal : Std.Total le := ⟨fun t u => by
    simpa only [Bool.or_eq_true] using total_le self u.atTime t.atTime⟩
  have hperm : (matched.insertionSort le).Perm matched := List.perm_insertionSort le matched
  have hsorted : (matched.insertionSort le).Pairwise le := List.pairwise_insertionSort le matched
  have hapart : (matched.insertionSort le).Pairwise fun t u => t.atTime ≠ u.atTime :=
    (hperm.pairwise_iff fun h => Ne.symm h).mpr (hdistinct.filter _)
  have hstored : ∀ t ∈ matched.insertionSort le, t.atTime ∈ rows.map (·.atTime) := by
    intro t ht
    exact List.mem_map_of_mem (List.mem_filter.mp (hperm.subset ht)).1
  have hstrict : (matched.insertionSort le).Pairwise fun t u => u.atTime < t.atTime := by
    refine (hsorted.and hapart).imp_of_mem fun ht hu h => ?_
    have hle := (le_iff hrows (hstored _ hu) (hstored _ ht)).mp h.1
    exact lt_of_le_of_ne hle (Ne.symm h.2)
  exact hstrict.sublist (List.take_sublist ..)

theorem length_fetchRecentTransitions (self : Backend) (rows : List Transition) (since : DateTime)
    (runId : Option String) (limit : Nat) :
    (self.fetchRecentTransitions toRfc3339 rows since runId limit).length =
      min limit (rows.countP (self.transitionMatches toRfc3339 since runId)) := by
  rw [fetchRecentTransitions, List.length_take, List.length_insertionSort, List.countP_eq_length_filter]

end

end Backend

end Kronical
