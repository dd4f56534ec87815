import Mathlib.Data.List.Chain
import Kronical.Lib.Transducer

/-!
# Paths of moves

A move goes from one place to another (`src`, `dst`). `MovePath src dst s ms t` says that the moves `ms`
lead from `s` to `t`, each starting where the one before it ended. A path starts at the source of
its first move (`MovePath.head_src`), ends at the target of its last one (`MovePath.end_eq`) and its
neighbours are linked (`MovePath.isChain`); a transducer whose every step puts out a path along a
projection of its state puts out a path on every run (`MovePath.run`).
-/

/-- The moves `ms` lead from `s` to `t`. -/
def MovePath {μ ν : Type*} (src dst : μ → ν) : ν → List μ → ν → Prop
  | s, [], t => s = t
  | s, m :: ms, t => src m = s ∧ MovePath src dst (dst m) ms t

namespace MovePath

variable {μ ν σ ι : Type*} {src dst : μ → ν}

@[simp] theorem nil_iff {s t : ν} : MovePath src dst s [] t ↔ s = t := Iff.rfl

@[simp] theorem cons_iff {s t : ν} {m : μ} {ms : List μ} :
    MovePath src dst s (m :: ms) t ↔ src m = s ∧ MovePath src dst (dst m) ms t := Iff.rfl

theorem append_iff {s t : ν} {ms ns : List μ} :
    MovePath src dst s (ms ++ ns) t ↔ ∃ u, MovePath src dst s ms u ∧ MovePath src dst u ns t := by
  induction ms generalizing s with
  | nil => simp
  | cons m ms ih => simp [ih, and_assoc]

theorem append {s t u : ν} {ms ns : List μ} (h : MovePath src dst s ms t) (h' : MovePath src dst t ns u) :
    MovePath src dst s (ms ++ ns) u :=
  append_iff.mpr ⟨t, h, h'⟩

theorem map_iff {κ : Type*} {f : κ → μ} {s t : ν} {ks : List κ} :
    MovePath src dst s (ks.map f) t ↔ MovePath (fun k => src (f k)) (fun k => dst (f k)) s ks t := by
  induction ks generalizing s with
  | nil => exact Iff.rfl
  | cons k ks ih => rw [List.map_cons, cons_iff, cons_iff, ih]

/-- Where a path ends. -/
theorem end_eq {s t : ν} {ms : List μ} (h : MovePath src dst s ms t) :
    t = (ms.getLast?.map dst).getD s := by
  induction ms generalizing s with
  | nil => exact h.symm
  | cons m ms ih =>
    rw [ih h.2]
    cases ms with
    | nil => rfl
    | cons n ns => simp [List.getLast?_cons]

theorem head_src {s t : ν} {ms : List μ} (h : MovePath src dst s ms t) :
    ∀ m ∈ ms.head?, src m = s := by
  cases ms with
  | nil => simp
  | cons m ms => simpa using h.1

/-- Every move starts where its predecessor ended. -/
theorem isChain {s t : ν} {ms : List μ} (h : MovePath src dst s ms t) :
    ms.IsChain fun m n => src n = dst m := by
  induction ms generalizing s with
  | nil => exact .nil
  | cons m ms ih =>
    exact (ih h.2).cons (head_src h.2)

/-- A transducer whose steps put out paths along a projection of its state puts out a path. -/
theorem run {step : Transducer σ ι μ} {place : σ → ν} {I : σ → Prop}
    (hinv : ∀ s i, I s → I (step s i).1)
    (hstep : ∀ s i, I s → MovePath src dst (place s) (step s i).2 (place (step s i).1))
    (is : List ι) {s : σ} (hs : I s) :
    MovePath src dst (place s) (Transducer.run step s is).2 (place (Transducer.run step s is).1) := by
  induction is generalizing s with
  | nil => rfl
  | cons i is ih => exact (hstep s i hs).append (ih (hinv s i hs))

end MovePath
