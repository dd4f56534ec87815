import Mathlib.Data.List.Induction
import Mathlib.Data.Nat.Basic
import Mathlib.Tactic.Common

/-!
# Group commit

A connection that keeps one transaction open and commits it after every `size` changes. A change either
inserts rows or aborts, and an abort rolls everything back to the last commit. So a row stays in sight
if and only if no abort follows it within its own group (`Grouped.mem_run_iff`).
-/

/-- The rows of the last commit, and the rows seen from within the open transaction. -/
structure Transaction (Row : Type*) where
  durable : List Row
  working : List Row
  deriving DecidableEq, Repr

namespace Transaction

variable {Row : Type*}

/-- A transaction on an empty database. -/
def start : Transaction Row := ⟨[], []⟩

def insert (self : Transaction Row) (rows : List Row) : Transaction Row :=
  { self with working := self.working ++ rows }

/-- `ROLLBACK; BEGIN`. -/
def rollback (self : Transaction Row) : Transaction Row := { self with working := self.durable }

/-- `COMMIT; BEGIN`. -/
def commit (self : Transaction Row) : Transaction Row := { self with durable := self.working }

end Transaction

/-- What one command does to the open transaction. -/
inductive Change (Row : Type*)
  | insert (rows : List Row)
  | abort

/-- An open transaction and the number of changes so far. -/
structure Grouped (Row : Type*) where
  transaction : Transaction Row
  count : Nat

namespace Grouped

variable {Row : Type*}

def start : Grouped Row := ⟨.start, 0⟩

/-- The change, and a commit if it completes a group. -/
def write (size : Nat) (self : Grouped Row) (change : Change Row) : Grouped Row :=
  let transaction := match change with
    | .insert rows => self.transaction.insert rows
    | .abort => self.transaction.rollback
  { transaction := if (self.count + 1) % size = 0 then transaction.commit else transaction
    count := self.count + 1 }

/-- Some abort comes after the change `j` in its group. -/
def Discarded (size : Nat) (changes : List (Change Row)) (j : Nat) : Prop :=
  ∃ i, j ≤ i ∧ i / size = j / size ∧ changes[i]? = some .abort

/-- `row` was inserted by the change `j` and not discarded. -/
def Kept (size : Nat) (changes : List (Change Row)) (j : Nat) (row : Row) : Prop :=
  (∃ rows, changes[j]? = some (.insert rows) ∧ row ∈ rows) ∧ ¬ Discarded size changes j

theorem Kept.lt_length {size : Nat} {changes : List (Change Row)} {j : Nat} {row : Row}
    (h : Kept size changes j row) : j < changes.length := by
  obtain ⟨⟨rows, hrows, -⟩, -⟩ := h
  exact (List.getElem?_eq_some_iff.mp hrows).1

theorem not_discarded_concat {size : Nat} {changes : List (Change Row)} {change : Change Row} {j : Nat}
    (hj : j ≤ changes.length) :
    ¬ Discarded size (changes ++ [change]) j ↔
      ¬ Discarded size changes j ∧ ¬ (change = .abort ∧ changes.length / size = j / size) := by
  rw [← not_or, not_iff_not]
  constructor
  · rintro ⟨i, hji, hgroup, hi⟩
    rcases Nat.lt_trichotomy i changes.length with hlt | rfl | hgt
    · rw [List.getElem?_append_left hlt] at hi
      exact .inl ⟨i, hji, hgroup, hi⟩
    · rw [List.getElem?_concat_length] at hi
      exact .inr ⟨Option.some.inj hi, hgroup⟩
    · rw [List.getElem?_eq_none (by simp; omega)] at hi
      cases hi
  · rintro (⟨i, hji, hgroup, hi⟩ | ⟨rfl, hgroup⟩)
    · have hlt : i < changes.length := (List.getElem?_eq_some_iff.mp hi).1
      exact ⟨i, hji, hgroup, by rw [List.getElem?_append_left hlt, hi]⟩
    · exact ⟨changes.length, hj, hgroup, List.getElem?_concat_length⟩

theorem kept_concat_of_lt {size : Nat} {changes : List (Change Row)} {change : Change Row} {j : Nat}
    {row : Row} (hj : j < changes.length) :
    Kept size (changes ++ [change]) j row ↔
      Kept size changes j row ∧ ¬ (change = .abort ∧ changes.length / size = j / size) := by
  unfold Kept
  rw [List.getElem?_append_left hj, not_discarded_concat (Nat.le_of_lt hj), and_assoc]

theorem kept_concat_length {size : Nat} {changes : List (Change Row)} {change : Change Row} {row : Row} :
    Kept size (changes ++ [change]) changes.length row ↔ ∃ rows, change = .insert rows ∧ row ∈ rows := by
  unfold Kept
  rw [List.getElem?_concat_length, not_discarded_concat le_rfl]
  constructor
  · rintro ⟨⟨rows, hrows, hmem⟩, -⟩
    exact ⟨rows, Option.some.inj hrows, hmem⟩
  · rintro ⟨rows, rfl, hmem⟩
    refine ⟨⟨rows, rfl, hmem⟩, ?_, ?_⟩
    · rintro ⟨i, hi, -, habort⟩
      have hlt : i < changes.length := (List.getElem?_eq_some_iff.mp habort).1
      omega
    · rintro ⟨habort, -⟩
      cases habort

/-- What the connection holds after `changes`. -/
structure Accounted (size : Nat) (changes : List (Change Row)) (conn : Grouped Row) : Prop where
  count : conn.count = changes.length
  working : ∀ row, row ∈ conn.transaction.working ↔ ∃ j, Kept size changes j row
  /-- The durable rows are those of the complete groups. -/
  durable : ∀ row, row ∈ conn.transaction.durable ↔
    ∃ j, Kept size changes j row ∧ j / size < changes.length / size

theorem accounted_start (size : Nat) : Accounted size ([] : List (Change Row)) start := by
  have hkept : ∀ j row, ¬ Kept size ([] : List (Change Row)) j row := by
    intro j row h
    exact absurd h.lt_length (Nat.not_lt_zero j)
  refine ⟨rfl, fun row => ?_, fun row => ?_⟩
  · simp [start, Transaction.start, hkept]
  · simp [start, Transaction.start, hkept]

theorem Accounted.mem_changed {size : Nat} {changes : List (Change Row)} {conn : Grouped Row}
    (h : Accounted size changes conn) (change : Change Row) (row : Row) :
    row ∈ (match change with
      | .insert rows => conn.transaction.insert rows
      | .abort => conn.transaction.rollback).working ↔ ∃ j, Kept size (changes ++ [change]) j row := by
  have hsplit : (∃ j, Kept size (changes ++ [change]) j row) ↔
      (∃ j, Kept size changes j row ∧ ¬ (change = .abort ∧ changes.length / size = j / size)) ∨
        ∃ rows, change = .insert rows ∧ row ∈ rows := by
    constructor
    · rintro ⟨j, hj⟩
      have hlen : j < (changes ++ [change]).length := hj.lt_length
      rw [List.length_append, List.length_singleton] at hlen
      rcases Nat.lt_succ_iff_lt_or_eq.mp hlen with hlt | rfl
      · exact .inl ⟨j, (kept_concat_of_lt hlt).mp hj⟩
      · exact .inr (kept_concat_length.mp hj)
    · rintro (⟨j, hj, hgroup⟩ | hlast)
      · exact ⟨j, (kept_concat_of_lt hj.lt_length).mpr ⟨hj, hgroup⟩⟩
      · exact ⟨changes.length, kept_concat_length.mpr hlast⟩
  rw [hsplit]
  cases change with
  | insert rows =>
    simp only [Transaction.insert, List.mem_append, h.working, reduceCtorEq, false_and, not_false_eq_true,
      and_true, Change.insert.injEq, exists_eq_left']
  | abort =>
    simp only [Transaction.rollback, h.durable, true_and, reduceCtorEq, false_and, exists_false, or_false]
    refine exists_congr fun j => and_congr_right fun hj => ?_
    have hle : j / size ≤ changes.length / size := Nat.div_le_div_right (Nat.le_of_lt hj.lt_length)
    omega

theorem Accounted.write {size : Nat} {changes : List (Change Row)} {conn : Grouped Row}
    (h : Accounted size changes conn) (change : Change Row) :
    Accounted size (changes ++ [change]) (conn.write size change) := by
  have hlen : (changes ++ [change]).length = changes.length + 1 := List.length_append
  have hdiv : (changes.length + 1) / size =
      changes.length / size + if size ∣ changes.length + 1 then 1 else 0 := Nat.succ_div ..
  have hmod : (conn.count + 1) % size = 0 ↔ size ∣ changes.length + 1 := by
    rw [h.count]
    exact (Nat.dvd_iff_mod_eq_zero ..).symm
  unfold Grouped.write
  by_cases hfull : size ∣ changes.length + 1
  · refine ⟨by rw [hlen, ← h.count], fun row => ?_, fun row => ?_⟩
    · simp only [if_pos (hmod.mpr hfull)]
      exact h.mem_changed change row
    · simp only [if_pos (hmod.mpr hfull)]
      refine (h.mem_changed change row).trans (exists_congr fun j => ?_)
      rw [hlen, hdiv, if_pos hfull, iff_self_and]
      intro hj
      have hlt : j < changes.length + 1 := by
        rw [← hlen]
        exact hj.lt_length
      have hle : j / size ≤ changes.length / size := Nat.div_le_div_right (Nat.lt_succ_iff.mp hlt)
      omega
  · refine ⟨by rw [hlen, ← h.count], fun row => ?_, fun row => ?_⟩
    · simp only [if_neg (mt hmod.mp hfull)]
      exact h.mem_changed change row
    · simp only [if_neg (mt hmod.mp hfull)]
      have hsame : row ∈ (match change with
          | .insert rows => conn.transaction.insert rows
          | .abort => conn.transaction.rollback).durable ↔ row ∈ conn.transaction.durable := by
        cases change <;> rfl
      rw [hsame, h.durable, hlen, hdiv, if_neg hfull, Nat.add_zero]
      refine exists_congr fun j => and_congr_left fun hj => ?_
      have hlt : j < changes.length := by
        by_contra hge
        exact absurd (Nat.div_le_div_right (Nat.le_of_not_lt hge)) (Nat.not_le.mpr hj)
      rw [kept_concat_of_lt hlt, iff_self_and]
      rintro - ⟨-, hgroup⟩
      omega

theorem accounted_run (size : Nat) (changes : List (Change Row)) :
    Accounted size changes (changes.foldl (Grouped.write size) start) := by
  induction changes using List.reverseRecOn with
  | nil => exact accounted_start size
  | append_singleton changes change ih =>
    rw [List.foldl_append]
    exact ih.write change

/-- The rows in sight after `changes` are those that were inserted and not discarded. -/
theorem mem_run_iff (size : Nat) (changes : List (Change Row)) (row : Row) :
    row ∈ (changes.foldl (Grouped.write size) start).transaction.working ↔
      ∃ j, Kept size changes j row :=
  (accounted_run size changes).working row

theorem run_insert (size : Nat) (inserted : List (List Row)) :
    (inserted.map Change.insert).foldl (Grouped.write size) start =
      { transaction :=
          { durable := (inserted.take (inserted.length / size * size)).flatten
            working := inserted.flatten }
        count := inserted.length } := by
  induction inserted using List.reverseRecOn with
  | nil => simp [start, Transaction.start]
  | append_singleton inserted rows ih =>
    have hdiv : (inserted.length + 1) / size =
        inserted.length / size + if size ∣ inserted.length + 1 then 1 else 0 := Nat.succ_div ..
    rw [List.map_append, List.foldl_append, ih]
    simp only [List.map_cons, List.map_nil, List.foldl_cons, List.foldl_nil, Grouped.write,
      Transaction.insert, List.length_append, List.length_singleton, List.flatten_append,
      List.flatten_singleton]
    have hmod : (inserted.length + 1) % size = 0 ↔ size ∣ inserted.length + 1 :=
      (Nat.dvd_iff_mod_eq_zero ..).symm
    rw [hdiv]
    by_cases hfull : size ∣ inserted.length + 1
    · -- The group is complete.
      have hall : (inserted.length / size + 1) * size = inserted.length + 1 := by
        rw [if_pos hfull] at hdiv
        rw [← hdiv, Nat.div_mul_cancel hfull]
      simp only [if_pos hfull, if_pos (hmod.mpr hfull), hall, Transaction.commit]
      rw [List.take_of_length_le (by simp), List.flatten_append, List.flatten_singleton]
    · have hle : inserted.length / size * size ≤ inserted.length := Nat.div_mul_le_self ..
      simp only [if_neg hfull, if_neg (mt hmod.mp hfull), Nat.add_zero]
      rw [List.take_append_of_le_length hle]

end Grouped
