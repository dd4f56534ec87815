import Kronical.Core.Records
import Kronical.Pipeline.Publish
import Kronical.Pipeline.Trace

/-!
# State transitions through the pipeline

A transition of the state engine becomes a state hint; the envelope stage notes it in the pending
update and sends the hint to the hints stage. Here it is followed along both ways: the hints sent are
those of the trace (`handle_hints`), and the updates sent carry exactly its reported transitions
(`handle_transitions`).
-/

namespace Kronical

/-! ### What goes to the hints stage -/

/-- The traced envelope, if it is a hint. -/
def hintOf (x : Traced) : Option EventEnvelope := if x.1.isHint then some x.1 else none

theorem flushTransition_hints (update : SnapshotUpdate) :
    sentTo .hints (flushTransition update).2 = [] := by
  unfold flushTransition flushSnapshotUpdate
  split_ifs <;> rfl

theorem collect_hints (update : SnapshotUpdate) (xs : List Traced) :
    sentTo .hints (collect.run update xs).2 = xs.filterMap hintOf := by
  induction xs generalizing update with
  | nil => rfl
  | cons x xs ih =>
    have hstep : sentTo .hints (collect update x).2 = (hintOf x).toList := by
      rw [collect, ← List.singleton_append, sentTo_append, flushTransition_hints, List.append_nil,
        forwarded, hintOf]
      split_ifs <;> rfl
    rw [Transducer.run_cons_snd, sentTo_append, hstep, ih, List.filterMap_cons]
    cases hintOf x <;> rfl

namespace EnvelopeStage

theorem closing_hints (self : EnvelopeStage) (cmd : Option DeriveCommand) :
    sentTo .hints (self.closing cmd) = [] := by
  refine sentTo_eq_nil fun packet hmem => ?_
  rcases self.closing_dest cmd packet hmem with h | h <;> rw [h] <;> decide

/-- The hints of the trace go to the hints stage. -/
theorem handle_hints (self : EnvelopeStage) (cmd : Option DeriveCommand) :
    sentTo .hints (self.handle cmd).2 = (self.trace cmd).2.filterMap hintOf := by
  rw [handle_eq, sentTo_append, collect_hints, closing_hints, List.append_nil]

end EnvelopeStage

/-! ### What the updates carry -/

theorem updatesOf_forwarded (env : EventEnvelope) (packets : List Packet) :
    updatesOf (forwarded env :: packets) = updatesOf packets := by
  unfold forwarded
  split_ifs <;> rfl

/-- Nothing of a transition is pending. -/
def SnapshotUpdate.Settled (update : SnapshotUpdate) : Prop :=
  update.transition = none ∧ update.state = none

theorem SnapshotUpdate.settled_default : SnapshotUpdate.default.Settled := ⟨rfl, rfl⟩

/-- The state comes with the transition. -/
def SnapshotUpdate.Paired (update : SnapshotUpdate) : Prop :=
  update.state = update.transition.map (·.toState)

theorem SnapshotUpdate.Settled.paired {update : SnapshotUpdate} (h : update.Settled) :
    update.Paired := by
  rw [Paired, h.1, h.2]
  rfl

theorem count_settled {update : SnapshotUpdate} (hupdate : update.Settled) (env : EventEnvelope) :
    (applyFocusUpdate (update.count env) env).Settled := by
  unfold applyFocusUpdate SnapshotUpdate.count
  split <;> split_ifs <;> exact hupdate

theorem note_of_some (update : SnapshotUpdate) {x : Traced} {transition : Transition}
    (h : transitionOf x = some transition) :
    (note update x).transition = some transition ∧ (note update x).Paired := by
  rw [note, applyStateUpdateHint, ← transitionOf, h]
  exact ⟨rfl, rfl⟩

theorem note_of_none {update : SnapshotUpdate} (hupdate : update.Settled) {x : Traced}
    (h : transitionOf x = none) : (note update x).Settled := by
  rw [note, applyStateUpdateHint, ← transitionOf, h]
  exact count_settled hupdate x.1

theorem collect_of_none {update : SnapshotUpdate} (hupdate : update.Settled) {x : Traced}
    (h : transitionOf x = none) :
    (collect update x).1 = note update x ∧ updatesOf (collect update x).2 = [] := by
  unfold collect flushTransition
  rw [(note_of_none hupdate h).1]
  exact ⟨rfl, updatesOf_forwarded _ _⟩

theorem collect_of_some (update : SnapshotUpdate) {x : Traced} {transition : Transition}
    (h : transitionOf x = some transition) :
    (collect update x).1 = .default ∧ updatesOf (collect update x).2 = [note update x] := by
  have hnoted := (note_of_some update h).1
  have hfull : (note update x).isEmpty = false := by
    simp [SnapshotUpdate.isEmpty, hnoted]
  unfold collect flushTransition flushSnapshotUpdate
  rw [hnoted, hfull]
  exact ⟨rfl, updatesOf_forwarded _ _⟩

theorem collect_transitions (xs : List Traced) {update : SnapshotUpdate} (hupdate : update.Settled) :
    (collect.run update xs).1.Settled ∧
      (updatesOf (collect.run update xs).2).filterMap (·.transition) = xs.filterMap transitionOf ∧
      ∀ u ∈ updatesOf (collect.run update xs).2, u.Paired := by
  induction xs generalizing update with
  | nil => exact ⟨hupdate, rfl, by simp [updatesOf]⟩
  | cons x xs ih =>
    rw [Transducer.run_cons_fst, Transducer.run_cons_snd, updatesOf_append, List.filterMap_append]
    cases htransition : transitionOf x with
    | none =>
      obtain ⟨hnext, hsent⟩ := collect_of_none hupdate htransition
      have hsettled := note_of_none hupdate htransition
      rw [hnext, hsent, List.filterMap_cons_none htransition]
      exact ih hsettled
    | some transition =>
      obtain ⟨hnext, hsent⟩ := collect_of_some update htransition
      obtain ⟨hnoted, hpaired⟩ := note_of_some update htransition
      obtain ⟨hsettled, htransitions, hall⟩ := ih SnapshotUpdate.settled_default
      rw [hnext, hsent, List.filterMap_cons_some htransition, htransitions]
      refine ⟨hsettled, ?_, ?_⟩
      · simp [hnoted]
      · intro u hu
        rcases List.mem_append.mp hu with hu | hu
        · rw [List.mem_singleton.mp hu]
          exact hpaired
        · exact hall u hu

namespace EnvelopeStage

theorem closing_updates (self : EnvelopeStage) (cmd : Option DeriveCommand) :
    ∀ u ∈ updatesOf (self.closing cmd), u.Settled := by
  have hclose : ∀ xs, ∀ u ∈ updatesOf (closeUpdate (collect.run .default xs).1), u.Settled := by
    intro xs u hu
    have hsettled := (collect_transitions xs SnapshotUpdate.settled_default).1
    unfold closeUpdate at hu
    split_ifs at hu
    · cases hu
    · rw [List.mem_singleton.mp (show u ∈ [(collect.run .default xs).1] from hu)]
      exact hsettled
  intro u hu
  unfold closing at hu
  split at hu
  · split_ifs at hu
    · cases hu
    · exact hclose _ u hu
  · split_ifs at hu
    · cases hu
    · exact hclose _ u hu
  · cases hu
  · cases hu

/-- The updates sent for a command carry the transitions of its trace, each with its state. -/
theorem handle_transitions (self : EnvelopeStage) (cmd : Option DeriveCommand) :
    (updatesOf (self.handle cmd).2).filterMap (·.transition) =
        (self.trace cmd).2.filterMap transitionOf ∧
      ∀ u ∈ updatesOf (self.handle cmd).2, u.Paired := by
  obtain ⟨-, htransitions, hpaired⟩ :=
    collect_transitions (self.trace cmd).2 SnapshotUpdate.settled_default
  rw [handle_eq, updatesOf_append, List.filterMap_append, htransitions]
  refine ⟨?_, ?_⟩
  · have hclosing : (updatesOf (self.closing cmd)).filterMap (·.transition) = [] :=
      List.filterMap_eq_nil_iff.mpr fun u hu => (self.closing_updates cmd u hu).1
    rw [hclosing, List.append_nil]
  · intro u hu
    rcases List.mem_append.mp hu with hu | hu
    · exact hpaired u hu
    · exact (self.closing_updates cmd u hu).paired

end EnvelopeStage

end Kronical
