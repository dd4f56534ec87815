import Mathlib.Data.List.Forall2
import Mathlib.Data.List.SplitBy
import Kronical.Lib.Transducer

/-!
# Collecting maximal runs

A transducer `Collects` runs if its state stands for the run that is still open: an input that is
joined to the last one extends the run in silence, any other input closes the run and opens the next
one. Then the runs it closes, with the one left open at the end, are the maximal runs of its inputs
(`Collects.run_cons`).
-/

namespace Runs

variable {ι ω : Type*}

/-- A list cut into runs: neighbours in a run are joined, and no run goes on in the next one. -/
structure Maximal (joined : ι → ι → Prop) (is : List ι) (runs : List (List ι)) : Prop where
  flatten : runs.flatten = is
  nonempty : ∀ run ∈ runs, run ≠ []
  chain : ∀ run ∈ runs, run.IsChain joined
  apart : runs.IsChain fun run run' =>
    ∀ last ∈ run.getLast?, ∀ first ∈ run'.head?, ¬ joined last first

theorem maximal_splitBy {test : ι → ι → Bool} {joined : ι → ι → Prop}
    (htest : ∀ i i', test i i' = true ↔ joined i i') (is : List ι) :
    Maximal joined is (is.splitBy test) where
  flatten := List.flatten_splitBy test is
  nonempty _ hrun := List.ne_nil_of_mem_splitBy hrun
  chain _ hrun := (List.isChain_of_mem_splitBy hrun).imp fun i i' h => (htest i i').mp h
  apart := by
    refine (List.isChain_getLast_head_splitBy test is).imp ?_
    rintro run run' ⟨hrun, hrun', hapart⟩ last hlast first hfirst hjoined
    rw [List.getLast?_eq_some_getLast hrun] at hlast
    rw [List.head?_eq_some_head hrun'] at hfirst
    cases hlast
    cases hfirst
    rw [(htest _ _).mpr hjoined] at hapart
    cases hapart

theorem Maximal.eq_splitBy {test : ι → ι → Bool} {joined : ι → ι → Prop}
    (htest : ∀ i i', test i i' = true ↔ joined i i') {is : List ι} {runs : List (List ι)}
    (h : Maximal joined is runs) : runs = is.splitBy test := by
  refine (List.splitBy_eq_iff.mpr ⟨h.flatten.symm, ?_, ?_, ?_⟩).symm
  · intro hnil
    exact h.nonempty [] hnil rfl
  · intro run hrun
    exact (h.chain run hrun).imp fun i i' hjoined => (htest i i').mpr hjoined
  · refine h.apart.imp_of_mem_imp ?_
    intro run run' hrun hrun' hapart
    have hne := h.nonempty run hrun
    have hne' := h.nonempty run' hrun'
    refine ⟨hne, hne', ?_⟩
    have hnot := hapart _ (List.getLast?_eq_some_getLast hne) _ (List.head?_eq_some_head hne')
    exact Bool.eq_false_iff.mpr fun hjoined => hnot ((htest _ _).mp hjoined)

theorem Maximal.exists_run {joined : ι → ι → Prop} {is : List ι} {runs : List (List ι)}
    (h : Maximal joined is runs) {i i' : ι} (hpair : [i, i'] <:+: is) (hjoined : joined i i') :
    ∃ run ∈ runs, i ∈ run ∧ i' ∈ run := by
  have hnil : [] ∉ runs := fun hmem => h.nonempty [] hmem rfl
  have hchain : is.IsChain fun i i' => joined i i' → ∃ run ∈ runs, i ∈ run ∧ i' ∈ run := by
    rw [← h.flatten, List.isChain_flatten hnil]
    constructor
    · intro run hrun
      exact (List.pairwise_of_forall_mem_list fun i hi i' hi' _ => ⟨run, hrun, hi, hi'⟩).isChain
    · exact h.apart.imp fun run run' hapart last hlast first hfirst hjoined =>
        absurd hjoined (hapart last hlast first hfirst)
  exact List.isChain_pair.mp ( List.IsChain.infix hchain hpair) hjoined

theorem Maximal.head?_eq {joined : ι → ι → Prop} {is run : List ι} {runs : List (List ι)}
    (h : Maximal joined is (run :: runs)) : run.head? = is.head? := by
  rw [← h.flatten, List.flatten_cons, List.head?_append_of_ne_nil _ (h.nonempty run (by simp))]

theorem Maximal.cons {joined : ι → ι → Prop} {run is : List ι} {runs : List (List ι)} (hne : run ≠ [])
    (hchain : run.IsChain joined) (h : Maximal joined is runs)
    (hapart : ∀ last ∈ run.getLast?, ∀ first ∈ is.head?, ¬ joined last first) :
    Maximal joined (run ++ is) (run :: runs) where
  flatten := by rw [List.flatten_cons, h.flatten]
  nonempty := List.forall_mem_cons.mpr ⟨hne, h.nonempty⟩
  chain := List.forall_mem_cons.mpr ⟨hchain, h.chain⟩
  apart := by
    cases runs with
    | nil => exact List.isChain_singleton _
    | cons run' runs =>
      refine List.isChain_cons_cons.mpr ⟨?_, h.apart⟩
      rw [h.head?_eq]
      exact hapart

theorem forall₂_flatMap {close : List ι → List ω} {R : List ι → ω → Prop} {runs : List (List ι)}
    (h : ∀ run ∈ runs, ∃ out, close run = [out] ∧ R run out) :
    List.Forall₂ R runs (runs.flatMap close) := by
  induction runs with
  | nil => exact .nil
  | cons run runs ih =>
    obtain ⟨out, hclose, hout⟩ := h run List.mem_cons_self
    rw [List.flatMap_cons, hclose]
    exact .cons hout (ih fun run hmem => h run (List.mem_cons_of_mem _ hmem))

end Runs

namespace Transducer

variable {σ ι ω : Type*}

/-- `step` keeps a run open as long as its inputs are `joined`, and answers with `close` of the run when
it ends. `holds s run` says that the state `s` stands for the open run. -/
structure Collects (step : Transducer σ ι ω) (joined : ι → ι → Bool) (close : List ι → List ω)
    (holds : σ → List ι → Prop) : Prop where
  extend : ∀ {s front last i}, holds s (front ++ [last]) → joined last i = true →
    (step s i).2 = [] ∧ holds (step s i).1 (front ++ [last] ++ [i])
  restart : ∀ {s front last i}, holds s (front ++ [last]) → joined last i = false →
    (step s i).2 = close (front ++ [last]) ∧ holds (step s i).1 [i]

variable {step : Transducer σ ι ω} {joined : ι → ι → Bool} {close : List ι → List ω}
  {holds : σ → List ι → Prop}

theorem Collects.run_loop (h : Collects step joined close holds) (is : List ι) {s : σ}
    {front : List ι} {last : ι} (hs : holds s (front ++ [last])) (closed : List (List ι)) :
    ∃ open_, holds (run step s is).1 open_ ∧
      (List.splitBy.loop joined is last front.reverse closed).flatMap close =
        closed.reverse.flatMap close ++ (run step s is).2 ++ close open_ := by
  induction is generalizing s front last closed with
  | nil =>
    refine ⟨front ++ [last], hs, ?_⟩
    simp [List.splitBy.loop]
  | cons i is ih =>
    rw [run_cons_fst, run_cons_snd]
    unfold List.splitBy.loop
    cases hjoined : joined last i with
    | true =>
      obtain ⟨hsilent, hnext⟩ := h.extend hs hjoined
      obtain ⟨open_, hopen, hruns⟩ := ih hnext closed
      refine ⟨open_, hopen, ?_⟩
      rw [hsilent, List.nil_append, ← hruns, List.reverse_append]
      rfl
    | false =>
      obtain ⟨hclose, hnext⟩ := h.restart hs hjoined
      have hsingle : holds (step s i).1 ([] ++ [i]) := hnext
      obtain ⟨open_, hopen, hruns⟩ := ih hsingle ((front ++ [last]) :: closed)
      refine ⟨open_, hopen, ?_⟩
      rw [hclose, List.reverse_cons, List.reverse_reverse]
      simpa [List.flatMap_append] using hruns

/-- From a state that stands for the first input alone, the maximal runs of all inputs are closed, the
last of them by `close` at the end. -/
theorem Collects.run_cons (h : Collects step joined close holds) {s : σ} {i : ι} (hs : holds s [i])
    (is : List ι) :
    ∃ open_, holds (run step s is).1 open_ ∧
      ((i :: is).splitBy joined).flatMap close = (run step s is).2 ++ close open_ := by
  have hsingle : holds s ([] ++ [i]) := hs
  exact h.run_loop is hsingle []

end Transducer
