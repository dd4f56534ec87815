import Mathlib.Data.List.Basic

/-!
# Machines

A machine is a step function with the states it may start from; an action that cannot be taken has no
next state. `Reach ok` are the states of the runs whose steps all meet `ok`, and what one step keeps
such a run keeps (`Reach.invariant`). `Along P` says of a whole run that each of its steps has `P`.
-/

structure Machine (σ α : Type*) where
  start : σ → Prop
  step : σ → α → Option σ

namespace Machine

variable {σ α : Type*} (machine : Machine σ α)

/-- The states of runs whose steps all meet `ok`. -/
inductive Reach (ok : σ → α → Prop) : σ → Prop
  | start {s} (hs : machine.start s) : Reach ok s
  | step {s a t} (hs : Reach ok s) (hok : ok s a) (h : machine.step s a = some t) : Reach ok t

/-- The states of all runs. -/
abbrev Reachable : σ → Prop := machine.Reach fun _ _ => True

/-- The state after these actions, if all of them can be taken. -/
def exec (s : σ) : List α → Option σ
  | [] => some s
  | a :: as => (machine.step s a).bind fun t => exec t as

/-- The state after these actions, if all of them can be taken and meet `ok`. -/
def execWithin (ok : σ → α → Prop) [∀ s a, Decidable (ok s a)] (s : σ) : List α → Option σ
  | [] => some s
  | a :: as => if ok s a then (machine.step s a).bind fun t => execWithin ok t as else none

/-- `P` at every step of the run that these actions make, as far as they can be taken. -/
def Along (P : σ → α → Prop) : σ → List α → Prop
  | _, [] => True
  | s, a :: as => P s a ∧ ∀ t, machine.step s a = some t → Along P t as

variable {machine} {ok : σ → α → Prop}

/-- What holds at the start and is kept by every step of a run holds of all its states. -/
theorem Reach.invariant {I : σ → Prop} (hstart : ∀ s, machine.start s → I s)
    (hstep : ∀ s a t, machine.Reach ok s → ok s a → machine.step s a = some t → I s → I t) {s : σ}
    (hs : machine.Reach ok s) : I s := by
  induction hs with
  | start hs => exact hstart _ hs
  | step hs hok h ih => exact hstep _ _ _ hs hok h ih

theorem Reach.reachable {s : σ} (hs : machine.Reach ok s) : machine.Reachable s := by
  induction hs with
  | start hs => exact .start hs
  | step _ _ h ih => exact .step ih trivial h

theorem Reach.exec {s t : σ} {as : List α} (hs : machine.Reach ok s) (hok : ∀ s, ∀ a ∈ as, ok s a)
    (h : machine.exec s as = some t) : machine.Reach ok t := by
  induction as generalizing s with
  | nil => exact Option.some.inj h ▸ hs
  | cons a as ih =>
    obtain ⟨u, hu, hrest⟩ := Option.bind_eq_some_iff.mp h
    exact ih (.step hs (hok s a List.mem_cons_self) hu) (fun s b hb => hok s b (List.mem_cons_of_mem _ hb)) hrest

theorem Reachable.exec {s t : σ} {as : List α} (hs : machine.Reachable s)
    (h : machine.exec s as = some t) : machine.Reachable t :=
  Reach.exec hs (fun _ _ _ => trivial) h

theorem Reach.execWithin [∀ s a, Decidable (ok s a)] {s t : σ} {as : List α}
    (hs : machine.Reach ok s) (h : machine.execWithin ok s as = some t) : machine.Reach ok t := by
  induction as generalizing s with
  | nil => exact Option.some.inj h ▸ hs
  | cons a as ih =>
    unfold Machine.execWithin at h
    split_ifs at h with hok
    obtain ⟨u, hu, hrest⟩ := Option.bind_eq_some_iff.mp h
    exact ih (.step hs hok hu) hrest

theorem along_congr {P Q : σ → α → Prop} {I : σ → Prop} (h : ∀ s a, I s → (P s a ↔ Q s a))
    (hkeep : ∀ s a t, P s a → machine.step s a = some t → I t) {s : σ} (hs : I s) (as : List α) :
    machine.Along P s as ↔ machine.Along Q s as := by
  induction as generalizing s with
  | nil => rfl
  | cons a as ih =>
    constructor
    · rintro ⟨hp, hrest⟩
      exact ⟨(h s a hs).mp hp, fun t ht => (ih (hkeep s a t hp ht)).mp (hrest t ht)⟩
    · rintro ⟨hq, hrest⟩
      have hp := (h s a hs).mpr hq
      exact ⟨hp, fun t ht => (ih (hkeep s a t hp ht)).mpr (hrest t ht)⟩

end Machine
