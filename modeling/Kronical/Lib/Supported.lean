import Kronical.Lib.Transducer

/-!
# Lists whose elements build on the earlier ones

`SupportedAfter needs past xs` says that each element of `xs` has what it needs in what precedes it: in
`past` or in `xs` in front of it. A cut leaves it so, and so does a transducer each of whose answers is
supported.
-/

variable {α : Type*} (needs : List α → α → Prop)

/-- Each element has what it needs in front of it. -/
def SupportedAfter : List α → List α → Prop
  | _, [] => True
  | past, x :: xs => needs past x ∧ SupportedAfter (past ++ [x]) xs

namespace SupportedAfter

variable {needs} {past xs ys : List α}

theorem append_iff : SupportedAfter needs past (xs ++ ys) ↔
    SupportedAfter needs past xs ∧ SupportedAfter needs (past ++ xs) ys := by
  induction xs generalizing past with
  | nil => simp [SupportedAfter]
  | cons x xs ih => simp [SupportedAfter, ih, and_assoc]

theorem append (h : SupportedAfter needs past xs) (h' : SupportedAfter needs (past ++ xs) ys) :
    SupportedAfter needs past (xs ++ ys) :=
  append_iff.mpr ⟨h, h'⟩

theorem of_initial (h : SupportedAfter needs past ys) (hinitial : xs <+: ys) :
    SupportedAfter needs past xs := by
  obtain ⟨rest, rfl⟩ := hinitial
  exact (append_iff.mp h).1

theorem of_forall (h : ∀ past, ∀ x ∈ xs, needs past x) : SupportedAfter needs past xs := by
  induction xs generalizing past with
  | nil => trivial
  | cons x xs ih => exact ⟨h past x List.mem_cons_self, ih fun past y hy => h past y (List.mem_cons_of_mem _ hy)⟩

theorem of_mem (hmono : ∀ front front' x, front <+: front' → needs front x → needs front' x)
    (h : SupportedAfter needs past xs) {x : α} (hx : x ∈ xs) : needs (past ++ xs) x := by
  obtain ⟨front, rest, rfl⟩ := List.append_of_mem hx
  have hneeds := (append_iff.mp h).2.1
  refine hmono _ _ x ?_ hneeds
  rw [← List.append_assoc]
  exact List.prefix_append ..

theorem transducer {σ ι o : Type*} {step : Transducer σ ι o} {inputs : List ι} (emit : List o → List α)
    (hemit : ∀ out out', emit (out ++ out') = emit out ++ emit out') (hnil : emit [] = [])
    {I : σ → Prop} (hstep : ∀ s, I s → ∀ i ∈ inputs,
      I (step s i).1 ∧ ∀ past, SupportedAfter needs past (emit (step s i).2))
    {s : σ} (hs : I s) : SupportedAfter needs past (emit (step.run s inputs).2) := by
  induction inputs generalizing s past with
  | nil =>
    rw [Transducer.run_nil, hnil]
    trivial
  | cons i is ih =>
    obtain ⟨hnext, hanswer⟩ := hstep s hs i List.mem_cons_self
    rw [Transducer.run_cons_snd, hemit]
    exact (hanswer past).append (ih (fun s hs i hi => hstep s hs i (List.mem_cons_of_mem _ hi)) hnext)

end SupportedAfter
