import Mathlib.Data.List.Basic
import Mathlib.Data.List.Pairwise
import Mathlib.Order.Defs.LinearOrder

/-!
# Stream transducers

A component that keeps a private state, reads one input at a time and answers with finitely many
outputs is a `Transducer`. `run` folds it over a list of inputs and concatenates the answers, so the
outputs of a run are one stream, and feeding one transducer's outputs to another is again a
transducer (`comp`, `run_comp`).

Three rules carry facts from one step to a whole run: `run_state` for invariants of the state,
`run_output` for properties of every single output under such an invariant, and `mem_run_split`,
which finds the step that put an output out.
-/

/-- One step of a stateful component: the next state and the outputs, in order. -/
abbrev Transducer (σ ι ω : Type*) := σ → ι → σ × List ω

namespace Transducer

variable {σ τ ι κ ω : Type*}

/-- The state after a list of inputs and everything put out on the way. -/
def run (step : Transducer σ ι ω) : σ → List ι → σ × List ω
  | s, [] => (s, [])
  | s, i :: is => ((run step (step s i).1 is).1, (step s i).2 ++ (run step (step s i).1 is).2)

variable (step : Transducer σ ι ω)

@[simp] theorem run_nil (s : σ) : run step s [] = (s, []) := rfl

theorem run_cons (s : σ) (i : ι) (is : List ι) :
    run step s (i :: is) =
      ((run step (step s i).1 is).1, (step s i).2 ++ (run step (step s i).1 is).2) := rfl

@[simp] theorem run_cons_fst (s : σ) (i : ι) (is : List ι) :
    (run step s (i :: is)).1 = (run step (step s i).1 is).1 := rfl

@[simp] theorem run_cons_snd (s : σ) (i : ι) (is : List ι) :
    (run step s (i :: is)).2 = (step s i).2 ++ (run step (step s i).1 is).2 := rfl

theorem run_append (s : σ) (is js : List ι) :
    run step s (is ++ js) =
      ((run step (run step s is).1 js).1, (run step s is).2 ++ (run step (run step s is).1 js).2) := by
  induction is generalizing s with
  | nil => simp
  | cons i is ih => simp [run_cons, ih]

theorem run_concat (s : σ) (is : List ι) (i : ι) :
    run step s (is ++ [i]) =
      ((step (run step s is).1 i).1, (run step s is).2 ++ (step (run step s is).1 i).2) := by
  simp [run_append, run_cons]

theorem run_map (f : κ → ι) (s : σ) (ks : List κ) :
    run (fun s k => step s (f k)) s ks = run step s (ks.map f) := by
  induction ks generalizing s with
  | nil => rfl
  | cons k ks ih => rw [List.map_cons, run_cons, run_cons, ih]

/-! ### From one step to a run -/

variable {step}

/-- What every step keeps, a run keeps. -/
theorem run_state {I : σ → Prop} (hstep : ∀ s i, I s → I (step s i).1) (is : List ι) {s : σ}
    (hs : I s) : I (run step s is).1 := by
  induction is generalizing s with
  | nil => exact hs
  | cons i is ih => exact ih (hstep s i hs)

/-- If every step keeps `I` and puts out only `P`s from states in `I`, so does a run. -/
theorem run_output {I : σ → Prop} {P : ω → Prop} (hstep : ∀ s i, I s → I (step s i).1)
    (hout : ∀ s i, I s → ∀ o ∈ (step s i).2, P o) (is : List ι) {s : σ} (hs : I s) :
    ∀ o ∈ (run step s is).2, P o := by
  induction is generalizing s with
  | nil => simp
  | cons i is ih =>
    intro o ho
    rcases List.mem_append.mp ho with ho | ho
    · exact hout s i hs o ho
    · exact ih (hstep s i hs) o ho

theorem run_fst_congr {ω' : Type*} {step' : Transducer σ ι ω'}
    (hstate : ∀ s i, (step s i).1 = (step' s i).1) (s : σ) (is : List ι) :
    (run step s is).1 = (run step' s is).1 := by
  induction is generalizing s with
  | nil => rfl
  | cons i is ih => rw [run_cons_fst, run_cons_fst, hstate, ih]

/-- Every output of a run answers one of its inputs, in the state the inputs before it lead to. -/
theorem mem_run_split {s : σ} {is : List ι} {o : ω} (ho : o ∈ (run step s is).2) :
    ∃ before i after, is = before ++ i :: after ∧ o ∈ (step (run step s before).1 i).2 := by
  induction is generalizing s with
  | nil => simp at ho
  | cons i is ih =>
    rcases List.mem_append.mp ho with ho | ho
    · exact ⟨[], i, is, rfl, ho⟩
    · obtain ⟨before, j, after, hsplit, hmem⟩ := ih ho
      exact ⟨i :: before, j, after, by rw [hsplit, List.cons_append], hmem⟩

theorem mem_run {s : σ} {is : List ι} {o : ω} (ho : o ∈ (run step s is).2) :
    ∃ t, ∃ i ∈ is, o ∈ (step t i).2 := by
  obtain ⟨before, i, after, hsplit, hmem⟩ := mem_run_split ho
  exact ⟨_, i, by simp [hsplit], hmem⟩

theorem run_sorted {α : Type*} [Preorder α] {key : ι → α} {key' : ω → α}
    (hout : ∀ s i, ∀ o ∈ (step s i).2, key' o = key i) {is : List ι}
    (his : is.Pairwise fun i j => key i ≤ key j) (s : σ) :
    (run step s is).2.Pairwise fun o o' => key' o ≤ key' o' := by
  induction is generalizing s with
  | nil => simp
  | cons i is ih =>
    obtain ⟨hi, his⟩ := List.pairwise_cons.mp his
    refine List.pairwise_append.mpr ⟨?_, ih his _, ?_⟩
    · refine List.pairwise_of_forall_mem_list fun o ho o' ho' => ?_
      rw [hout s i o ho, hout s i o' ho']
    · intro o ho o' ho'
      obtain ⟨t, j, hj, hmem⟩ := mem_run ho'
      rw [hout s i o ho, hout t j o' hmem]
      exact hi j hj

/-! ### Conditions along a run -/

/-- Every input meets `P` in the state it is read in. -/
def Along (step : Transducer σ ι ω) (P : σ → ι → Prop) : σ → List ι → Prop
  | _, [] => True
  | s, i :: is => P s i ∧ Along step P (step s i).1 is

instance decidableAlong (step : Transducer σ ι ω) (P : σ → ι → Prop) [∀ s i, Decidable (P s i)] :
    ∀ s is, Decidable (Along step P s is)
  | _, [] => .isTrue trivial
  | s, i :: is =>
    have := decidableAlong step P (step s i).1 is
    inferInstanceAs (Decidable (P s i ∧ Along step P (step s i).1 is))

theorem along_append {P : σ → ι → Prop} {s : σ} {is js : List ι} :
    Along step P s (is ++ js) ↔ Along step P s is ∧ Along step P (run step s is).1 js := by
  induction is generalizing s with
  | nil => exact (and_iff_right trivial).symm
  | cons i is ih => exact (and_congr_right fun _ => ih).trans and_assoc.symm

/-! ### Composition -/

/-- Every output of `f` is an input of `g`. -/
def comp (f : Transducer σ ι κ) (g : Transducer τ κ ω) : Transducer (σ × τ) ι ω :=
  fun s i => (((f s.1 i).1, (run g s.2 (f s.1 i).2).1), (run g s.2 (f s.1 i).2).2)

theorem run_comp (f : Transducer σ ι κ) (g : Transducer τ κ ω) (s : σ) (t : τ) (is : List ι) :
    run (comp f g) (s, t) is =
      (((run f s is).1, (run g t (run f s is).2).1), (run g t (run f s is).2).2) := by
  induction is generalizing s t with
  | nil => rfl
  | cons i is ih => simp [run_cons, comp, ih, run_append]

/-! ### Steps that may fail -/

section

universe u

variable {S O : Type u} {ε : Type*}

/-- The run of steps that may fail, up to the first one that does. -/
def tryRun (step : S → ι → Except ε (S × List O)) : S → List ι → Except ε (S × List O)
  | s, [] => .ok (s, [])
  | s, i :: is => do
    let (next, out) ← step s i
    let (final, outs) ← tryRun step next is
    .ok (final, out ++ outs)

theorem tryRun_eq {failing : S → ι → Except ε (S × List O)} {step : Transducer S ι O} {I : S → Prop}
    {is : List ι} (hstep : ∀ s, ∀ i ∈ is, I s → failing s i = .ok (step s i) ∧ I (step s i).1) {s : S}
    (hs : I s) : tryRun failing s is = .ok (run step s is) ∧ I (run step s is).1 := by
  induction is generalizing s with
  | nil => exact ⟨rfl, hs⟩
  | cons i is ih =>
    obtain ⟨hok, hnext⟩ := hstep s i List.mem_cons_self hs
    obtain ⟨hrest, hfinal⟩ := ih (fun s j hj => hstep s j (List.mem_cons_of_mem i hj)) hnext
    refine ⟨?_, hfinal⟩
    rw [tryRun, hok]
    dsimp only [bind, Except.bind]
    rw [hrest]
    rfl

end

end Transducer
