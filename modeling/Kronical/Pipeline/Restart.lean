import Kronical.Pipeline.EngineRun
import Kronical.Pipeline.NothingLost
import Kronical.Storage.Hydration

/-!
# The published state behind a restart

Three stages keep an activity state: the engine and the record builder start `Inactive`, the snapshot
stage starts where the stored transitions it was given end. All three then follow the same
transitions, so they agree once a transition has reached them, and before that only if the stored
ones end in `Inactive` (`published_state_follows_iff`).
-/

namespace Kronical

open Network

variable {cfg : PipelineConfig}
  {ok : Network.Config Stage.Msg Stage.Reading Stage.Local → Network.Action Stage.Reading → Prop}
  {s : Network.Config Stage.Msg Stage.Reading Stage.Local}

/-- Where transitions that start in `state` lead. -/
def endState (state : ActivityState) (transitions : List Transition) : ActivityState :=
  (transitions.getLast?.map (·.toState)).getD state

@[simp] theorem endState_nil (state : ActivityState) : endState state [] = state := rfl

theorem endState_last {transitions : List Transition} {t : Transition}
    (h : transitions.getLast? = some t) (state : ActivityState) :
    endState state transitions = t.toState := by
  rw [endState, h]
  rfl

theorem endState_append (state : ActivityState) (before after : List Transition) :
    endState state (before ++ after) = endState (endState state before) after := by
  unfold endState
  rw [List.getLast?_append]
  cases after.getLast? <;> rfl

/-- The transitions the envelope stage has told the snapshot stage about. -/
def told (s : Network.Config Stage.Msg Stage.Reading Stage.Local) : List Transition :=
  (updatesOf (s .envelope).sent).filterMap (·.transition)

/-- The transitions it is about to tell the snapshot stage about. -/
def untold (s : Network.Config Stage.Msg Stage.Reading Stage.Local) : List Transition :=
  (updatesOf (s .envelope).outbox).filterMap (·.transition)

/-- Where state changes that start in `Inactive` lead. -/
def changedState (changes : List StateTransition) : ActivityState :=
  (changes.getLast?.map (·.toState)).getD .inactive

theorem changedState_append (before after : List StateTransition) :
    changedState (before ++ after) = (after.getLast?.map (·.toState)).getD (changedState before) := by
  unfold changedState
  rw [List.getLast?_append]
  cases after.getLast? <;> rfl

/-- The state changes the record builder has handled. -/
def handled (s : Network.Config Stage.Msg Stage.Reading Stage.Local) : List StateTransition :=
  ((s .hints).inputs.filterMap Prod.snd).filterMap RecordBuilder.stateChange

/-- The state changes the record builder has not handled yet. -/
def unhandled (s : Network.Config Stage.Msg Stage.Reading Stage.Local) : List StateTransition :=
  ((s .hints).queue.map Prod.snd ++ sentTo .hints (s .envelope).outbox).filterMap
    RecordBuilder.stateChange

/-- The snapshot stage has processed every update sent so far. -/
def CaughtUp (s : Network.Config Stage.Msg Stage.Reading Stage.Local) : Prop :=
  ∀ msg ∈ (s .snapshot).queue, asUpdate msg.2 = none

/-! ### The envelope stage -/

theorem envelope_run (hs : (pipeline cfg).Reach ok s) :
    EnvelopeStage.loop.run
        (.new cfg.envelopeStarted cfg.activeGraceSecs cfg.idleThresholdSecs)
        ((s .envelope).inputs.map Prod.snd) =
      ((s .envelope).current, (s .envelope).sent ++ (s .envelope).outbox) := by
  rw [← Transducer.run_map]
  exact hs.run_eq .envelope (core_unrefused hs .envelope (.inr (.inl rfl)))

theorem engine_moves (hs : (pipeline cfg).Reach ok s) :
    ∃ moves : List (DateTime × StateTransition),
      MovePath (·.2.fromState) (·.2.toState) ActivityState.inactive moves
        (s .envelope).current.engine.current ∧
      (told s ++ untold s).map (·.move) = moves ∧
      (sentTo .hints ((s .envelope).sent ++ (s .envelope).outbox)).filterMap
        RecordBuilder.stateChange = moves.map (·.2) := by
  have hrun := envelope_run hs
  let envelope := EnvelopeStage.new cfg.envelopeStarted cfg.activeGraceSecs cfg.idleThresholdSecs
  let cmds := (s .envelope).inputs.map Prod.snd
  obtain ⟨hstate, -, htransitions, -⟩ := envelope.loop_run cmds
  obtain ⟨hengine, hmoves⟩ := envelope.stimuli_run cmds
  have hpath := DefaultStateEngine.react_path (DefaultStateEngine.coherent_new cfg.envelopeStarted
    (asI64 cfg.activeGraceSecs) (asI64 cfg.idleThresholdSecs)) (EnvelopeStage.stimuli.run envelope cmds).2
  have hchanges := envelope.stateChange_run cmds
  rw [show EnvelopeStage.loop.run envelope cmds = _ from hrun] at hstate htransitions hchanges
  refine ⟨(DefaultStateEngine.react.run envelope.engine
    (EnvelopeStage.stimuli.run envelope cmds).2).2, ?_, ?_, ?_⟩
  · rw [show (s .envelope).current = _ from hstate, hengine]
    exact hpath
  · rw [told, untold, ← List.filterMap_append, ← updatesOf_append, htransitions, hmoves]
  · rw [← hchanges, List.map_filterMap]
    refine List.filterMap_congr fun hint _ => ?_
    cases RecordBuilder.stateChange hint <;> rfl

theorem engine_state (hs : (pipeline cfg).Reach ok s) :
    (s .envelope).current.engine.current = endState (endState .inactive (told s)) (untold s) := by
  obtain ⟨moves, hpath, htransitions, -⟩ := engine_moves hs
  rw [← endState_append, hpath.end_eq, ← htransitions, endState, List.getLast?_map, Option.map_map]
  rfl

/-! ### The snapshot stage -/

theorem snapshot_state (hs : (pipeline cfg).Reach ok s) (hcaught : CaughtUp s) :
    (s .snapshot).current.currentState =
      endState (endState .inactive cfg.initialTransitions) (told s) := by
  have hrun := hs.run_eq .snapshot (core_unrefused hs .snapshot (.inr (.inr (.inr rfl))))
  let stage := SnapshotStage.new (.new cfg.runId) cfg.retentionMinutes cfg.initialRecords
    cfg.initialTransitions cfg.snapshotStarted
  have hcurrent : (SnapshotStage.loop.run stage (s .snapshot).inputs).1 = (s .snapshot).current :=
    congrArg Prod.fst hrun
  have hstart : stage.currentState = endState .inactive cfg.initialTransitions := by
    rw [(SnapshotStage.new_spec ..).2.2, SnapshotStage.hydrated, List.getLast?_map, Option.map_map,
      endState]
    congr 2
    funext t
    exact SnapshotStage.attachRunId_toState _ t
  have hpaired : ∀ u ∈ updatesOf (s .envelope).sent, u.state = u.transition.map (·.toState) := by
    intro u hu
    have hall := (EnvelopeStage.loop_run (.new cfg.envelopeStarted cfg.activeGraceSecs
      cfg.idleThresholdSecs) ((s .envelope).inputs.map Prod.snd)).2.2.2
    rw [envelope_run hs, updatesOf_append] at hall
    exact hall u (List.mem_append_left _ hu)
  have hstates : (updatesOf (s .envelope).sent).filterMap (·.state) =
      (told s).map (·.toState) := by
    rw [told, List.map_filterMap]
    exact List.filterMap_congr hpaired
  rw [← hcurrent, SnapshotStage.loop_currentState, snapshot_updates hs hcaught, hstates, hstart,
    List.getLast?_map]
  rfl

/-! ### The hints stage -/

theorem HintsStage.loop_builder (self : HintsStage)
    (received : List (RecordBuilder.HintClock × Option EventEnvelope)) :
    (loop.run self received).1.recordBuilder.currentState =
      (((received.filterMap Prod.snd).filterMap RecordBuilder.stateChange).getLast?.map
        (·.toState)).getD self.recordBuilder.currentState := by
  induction received generalizing self with
  | nil => rfl
  | cons i received ih =>
    rw [Transducer.run_cons_fst, ih]
    obtain ⟨clock, _ | env⟩ := i
    · rfl
    · have hstate : (self.loop (clock, some env)).1.recordBuilder.currentState = _ :=
        self.recordBuilder.onHint_currentState env clock
      have hhead : ((clock, some env) :: received).filterMap Prod.snd =
        env :: received.filterMap Prod.snd := rfl
      rw [hstate, hhead, List.filterMap_cons]
      cases RecordBuilder.stateChange env with
      | none => rfl
      | some change =>
        rw [List.getLast?_cons]
        cases ((received.filterMap Prod.snd).filterMap RecordBuilder.stateChange).getLast? <;> rfl

theorem builder_state (hs : (pipeline cfg).Reach ok s) :
    (s .hints).current.recordBuilder.currentState = changedState (handled s) := by
  have hrun := hs.run_eq .hints (core_unrefused hs .hints (.inr (.inr (.inl rfl))))
  have hcurrent : (HintsStage.loop.run (.new cfg.runId cfg.nextRecordId) (s .hints).inputs).1 =
      (s .hints).current := congrArg Prod.fst hrun
  have hbuilder := HintsStage.loop_builder (.new cfg.runId cfg.nextRecordId) (s .hints).inputs
  rwa [hcurrent] at hbuilder

theorem engine_changed (hs : (pipeline cfg).Reach ok s) :
    (s .envelope).current.engine.current = changedState (handled s ++ unhandled s) := by
  obtain ⟨moves, hpath, -, hchanges⟩ := engine_moves hs
  -- Every hint is handled, in the inbox or on its way to it.
  have hall : moves.map (·.2) = handled s ++ unhandled s := by
    rw [← hchanges, sentTo_append, ← hints_arrived hs, handled, unhandled, Node.arrived, List.map_append,
      List.append_assoc, List.filterMap_append]
    congr 2
    rw [Node.inputs, List.filterMap_map, List.map_filterMap]
    rfl
  rw [← hall, hpath.end_eq, changedState, List.getLast?_map, Option.map_map]
  rfl

/-! ### All three -/

/-- In every reachable state in which the snapshot stage has caught up, its state is that of the engine and
of the record builder if and only if the last untold transition leads where the last of those hydrated and
told does, the last unhandled change leads where the last handled one does, and, where nothing is untold,
something was told or the hydrated transitions end in `Inactive`. -/
theorem published_state_follows_iff (cfg : PipelineConfig)
    (s : Network.Config Stage.Msg Stage.Reading Stage.Local) (hs : (pipeline cfg).Reachable s)
    (hcaught : CaughtUp s) :
    ((s .snapshot).current.currentState = (s .envelope).current.engine.current ∧
        (s .snapshot).current.currentState = (s .hints).current.recordBuilder.currentState) ↔
      (untold s = [] → told s ≠ [] ∨ ∀ t ∈ cfg.initialTransitions.getLast?, t.toState = .inactive) ∧
        (∀ t ∈ (untold s).getLast?, t.toState = endState .inactive (cfg.initialTransitions ++ told s)) ∧
        ∀ change ∈ (unhandled s).getLast?, change.toState = changedState (handled s) := by
  have hpublished := snapshot_state hs hcaught
  rw [← endState_append] at hpublished
  have hengine := engine_state hs
  have hchanged := engine_changed hs
  rw [changedState_append] at hchanged
  rw [hpublished, builder_state hs]
  constructor
  · rintro ⟨hfollows, hrecorded⟩
    refine ⟨fun huntold => ?_, fun t ht => ?_, fun change hchange => ?_⟩
    · rw [or_iff_not_imp_left, not_not]
      intro htold t ht
      rw [hengine, htold, huntold, List.append_nil] at hfollows
      exact (endState_last ht .inactive).symm.trans hfollows
    · rw [hfollows, hengine, endState_last ht]
    · rw [Option.mem_def.mp hchange] at hchanged
      exact hchanged.symm.trans (hfollows.symm.trans hrecorded)
  · rintro ⟨hstart, hlast, hwaiting⟩
    have hfollows : endState .inactive (cfg.initialTransitions ++ told s) =
        (s .envelope).current.engine.current := by
      cases huntold : (untold s).getLast? with
      | some t =>
        rw [hengine, endState_last huntold]
        exact (hlast t huntold).symm
      | none =>
        have hnone := List.getLast?_eq_none_iff.mp huntold
        rw [hengine, hnone, endState_append]
        cases htold : (told s).getLast? with
        | some t => rw [endState_last htold, endState_nil, endState_last htold]
        | none =>
          have hfresh := List.getLast?_eq_none_iff.mp htold
          have hhydrated := (hstart hnone).resolve_left (not_not.mpr hfresh)
          rw [hfresh, endState_nil, endState_nil, endState_nil]
          cases hstored : cfg.initialTransitions.getLast? with
          | some t =>
            rw [endState_last hstored]
            exact hhydrated t hstored
          | none => rw [List.getLast?_eq_none_iff.mp hstored, endState_nil]
    refine ⟨hfollows, hfollows.trans (hchanged.trans ?_)⟩
    cases hunhandled : (unhandled s).getLast? with
    | some change => exact hwaiting change hunhandled
    | none => rfl

/-- A pipeline that is started again after the machine was locked. -/
def restartedConfig : PipelineConfig :=
  { plainConfig with initialTransitions := [⟨.active, .locked, 1000000000, none, none⟩] }

/-- The first keystroke brings the three states together. -/
theorem keystroke_behind_restart :
    ∃ s, (pipeline restartedConfig).exec (pipeline restartedConfig).start drowsySchedule = some s ∧
      (s .snapshot).current.currentState = (s .envelope).current.engine.current ∧
      (s .snapshot).current.currentState = (s .hints).current.recordBuilder.currentState := by
  obtain ⟨s, hs⟩ := Option.isSome_iff_exists.mp (show ((pipeline restartedConfig).exec
    (pipeline restartedConfig).start drowsySchedule).isSome = true by decide)
  have hcheck : (((pipeline restartedConfig).exec (pipeline restartedConfig).start
      drowsySchedule).map fun s => ((s .snapshot).queue, untold s, (told s).isEmpty, unhandled s)) =
        some ([], [], false, []) := by decide
  rw [hs] at hcheck
  simp only [Option.map_some, Option.some.injEq, Prod.mk.injEq, List.isEmpty_eq_false_iff] at hcheck
  obtain ⟨hqueue, huntold, htold, hunhandled⟩ := hcheck
  have hcaught : CaughtUp s := fun msg hmem => absurd (hqueue ▸ hmem) List.not_mem_nil
  refine ⟨s, hs, (published_state_follows_iff restartedConfig s (.exec .start hs) hcaught).mpr ?_⟩
  rw [huntold, hunhandled]
  exact ⟨fun _ => .inl htold, nofun, nofun⟩

/-- Until then the pipeline publishes that the machine is locked. -/
theorem locked_behind_restart :
    ¬ ∀ s, (pipeline restartedConfig).Reachable s → CaughtUp s →
      (s .snapshot).current.currentState = (s .envelope).current.engine.current ∧
        (s .snapshot).current.currentState = (s .hints).current.recordBuilder.currentState := by
  intro h
  have hstart := (h _ .start fun _ hmem => absurd hmem List.not_mem_nil).1
  revert hstart
  decide

end Kronical
