import Mathlib.Data.List.Induction
import Kronical.Lib.Transducer

/-!
# Histories

What a component does can be said without a state: each input is answered as the inputs before it ask for. A
history is the list of inputs so far, `History.steps` are the inputs of a list with what was before each, and
a transducer whose state is a function of the history answers as `History.answers` says (`run_history`).
-/

namespace History

variable {ι ω σ : Type*}

/-- The inputs, each with the history before it. -/
def steps (inputs : List ι) : List (List ι × ι) := inputs.mapIdx fun i input => (inputs.take i, input)

@[simp] theorem steps_nil : steps ([] : List ι) = [] := rfl

@[simp] theorem steps_concat (inputs : List ι) (input : ι) :
    steps (inputs ++ [input]) = steps inputs ++ [(inputs, input)] := by
  rw [steps, List.mapIdx_concat, List.take_left, steps]
  congr 1
  refine List.ext_getElem? fun i => ?_
  rw [List.getElem?_mapIdx, List.getElem?_mapIdx]
  cases hi : inputs[i]? with
  | none => rfl
  | some x =>
    obtain ⟨hlt, -⟩ := List.getElem?_eq_some_iff.mp hi
    rw [Option.map_some, Option.map_some, List.take_append_of_le_length (Nat.le_of_lt hlt)]

/-- All answers, each as the history before its input asks for. -/
def answers (answer : List ι → ι → List ω) (inputs : List ι) : List ω :=
  (steps inputs).flatMap fun step => answer step.1 step.2

theorem answers_concat (answer : List ι → ι → List ω) (inputs : List ι) (input : ι) :
    answers answer (inputs ++ [input]) = answers answer inputs ++ answer inputs input := by
  simp [answers]

/-- A transducer whose state is a function of the history. -/
theorem run_history {step : Transducer σ ι ω} {state : List ι → σ} {answer : List ι → ι → List ω}
    (hstep : ∀ past input, step (state past) input = (state (past ++ [input]), answer past input))
    (inputs : List ι) : step.run (state []) inputs = (state inputs, answers answer inputs) := by
  induction inputs using List.reverseRecOn with
  | nil => rfl
  | append_singleton inputs input ih => rw [Transducer.run_concat, ih, hstep, answers_concat]

end History
