import Mathlib.Data.Finset.Card
import Mathlib.Data.Finset.Range

/-!
# Heaps of counted references

A reference is the number of an allocation, which keeps its value for ever and lives as long as it has a
strong reference. `upgrade` makes a strong reference of a weak one if the value still lives; what has died
stays dead (`get_clone`, `get_of_release`).
-/

/-- All allocations, each with the number of its strong references. -/
abbrev RefHeap (α : Type*) := List (α × Nat)

namespace RefHeap

variable {α : Type*}

/-- What was allocated there. -/
def valueOf (heap : RefHeap α) (p : Nat) : Option α := heap[p]?.map Prod.fst

def strongCount (heap : RefHeap α) (p : Nat) : Nat := heap[p]?.elim 0 Prod.snd

/-- The value there, if it lives. -/
def get (heap : RefHeap α) (p : Nat) : Option α :=
  if 0 < heap.strongCount p then heap.valueOf p else none

/-- The allocations that live. -/
def live (heap : RefHeap α) : Finset Nat := (Finset.range heap.length).filter (0 < heap.strongCount ·)

def alloc (heap : RefHeap α) (a : α) : RefHeap α × Nat := (heap ++ [(a, 1)], heap.length)

/-- One more strong reference. -/
def clone (heap : RefHeap α) (p : Nat) : RefHeap α := heap.modify p fun c => (c.1, c.2 + 1)

/-- One strong reference fewer. -/
def release (heap : RefHeap α) (p : Nat) : RefHeap α := heap.modify p fun c => (c.1, c.2 - 1)

def upgrade (heap : RefHeap α) (p : Nat) : Option (RefHeap α × Nat) :=
  if 0 < heap.strongCount p then some (heap.clone p, p) else none

variable {heap : RefHeap α} {p q : Nat} {a : α}

/-! ### Values -/

theorem get_eq_some : heap.get p = some a ↔ heap.valueOf p = some a ∧ 0 < heap.strongCount p := by
  unfold get
  split_ifs with h <;> simp [h]

theorem lt_of_valueOf (h : heap.valueOf p = some a) : p < heap.length := by
  obtain ⟨c, hc, -⟩ := Option.map_eq_some_iff.mp h
  exact (List.getElem?_eq_some_iff.mp hc).1

theorem mem_live : p ∈ heap.live ↔ ∃ a, heap.get p = some a := by
  rw [live, Finset.mem_filter, Finset.mem_range]
  constructor
  · rintro ⟨hlt, hcount⟩
    exact ⟨heap[p].1, get_eq_some.mpr ⟨by simp [valueOf, hlt], hcount⟩⟩
  · rintro ⟨a, ha⟩
    obtain ⟨hvalue, hcount⟩ := get_eq_some.mp ha
    exact ⟨lt_of_valueOf hvalue, hcount⟩

/-! ### Operations -/

theorem valueOf_alloc_of_lt (h : p < heap.length) : (heap.alloc a).1.valueOf p = heap.valueOf p := by
  simp [alloc, valueOf, List.getElem?_append_left h]

theorem valueOf_alloc_self : (heap.alloc a).1.valueOf heap.length = some a := by
  simp [alloc, valueOf]

theorem get_alloc_of_lt (h : p < heap.length) : (heap.alloc a).1.get p = heap.get p := by
  have hcount : (heap.alloc a).1.strongCount p = heap.strongCount p := by
    simp [alloc, strongCount, List.getElem?_append_left h]
  simp only [get, hcount, valueOf_alloc_of_lt h]

theorem get_alloc_self : (heap.alloc a).1.get heap.length = some a := by
  simp [alloc, get, strongCount, valueOf]

theorem get_alloc {b : α} : (heap.alloc a).1.get p = some b ↔ p = heap.length ∧ b = a ∨ heap.get p = some b := by
  rcases lt_trichotomy p heap.length with h | rfl | h
  · rw [get_alloc_of_lt h, or_iff_right fun hp => by omega]
  · have hnone : heap.get heap.length = none := by simp [get, strongCount]
    simp [get_alloc_self, hnone, eq_comm]
  · have hnone : heap.get p = none := by simp [get, strongCount, h.le]
    have hbeyond : (heap.alloc a).1.get p = none := by
      simp [alloc, get, strongCount, List.getElem?_eq_none (show (heap ++ [(a, 1)]).length ≤ p by simp; omega)]
    simp [hnone, hbeyond, h.ne']

theorem valueOf_modify (f : Nat → Nat) :
    RefHeap.valueOf (heap.modify p fun c => (c.1, f c.2)) q = heap.valueOf q := by
  simp only [valueOf, List.getElem?_modify]
  split_ifs <;> simp [Function.comp_def]

theorem strongCount_modify (f : Nat → Nat) :
    RefHeap.strongCount (heap.modify p fun c => (c.1, f c.2)) q =
      if p = q ∧ q < heap.length then f (heap.strongCount q) else heap.strongCount q := by
  simp only [strongCount, List.getElem?_modify]
  by_cases hlt : q < heap.length
  · split_ifs <;> simp_all
  · simp [hlt]

@[simp]
theorem valueOf_clone : (heap.clone p).valueOf q = heap.valueOf q := valueOf_modify (· + 1)

@[simp]
theorem valueOf_release : (heap.release p).valueOf q = heap.valueOf q := valueOf_modify (· - 1)

/-- Cloning a reference to what lives changes no value. -/
theorem get_clone (h : 0 < heap.strongCount p) : (heap.clone p).get q = heap.get q := by
  have hcount : 0 < (heap.clone p).strongCount q ↔ 0 < heap.strongCount q := by
    rw [clone, strongCount_modify (· + 1)]
    split_ifs with hpq
    · rw [← hpq.1]
      omega
    · rfl
  simp only [get, hcount, valueOf_clone]

/-- What lives after a release lived before it. -/
theorem get_of_release (h : (heap.release p).get q = some a) : heap.get q = some a := by
  rw [get_eq_some, valueOf_release, release, strongCount_modify (· - 1)] at h
  obtain ⟨hvalue, hcount⟩ := h
  refine get_eq_some.mpr ⟨hvalue, ?_⟩
  split_ifs at hcount <;> omega

end RefHeap
