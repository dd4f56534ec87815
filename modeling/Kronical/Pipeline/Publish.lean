import Kronical.Pipeline.Types

/-!
# The snapshot stage

The stage keeps what the daemon publishes: the counters, the recent records, the current state and
focus and the last transition. It is initialised from stored transitions, takes over every
`SnapshotUpdate`, and after the shutdown of the envelope stage and the completion of the hints stage
(or when all its senders are gone) publishes once more and shuts storage down.

The clock is read for every publication and the reading is an argument here. The aggregated
application list and the storage and configuration sections of a snapshot are left out.
-/

namespace Kronical

/-- `chrono::Duration::minutes(minutes as i64)`, in nanoseconds. -/
def minutes (n : Nat) : Int := asI64 n * 60000000000

def pollSuspendMs : Nat := 0

/-- The poll interval and the reason a state gives for it. -/
def cadence : ActivityState → Nat × String
  | .active => (2000, "Active")
  | .passive => (10000, "Passive")
  | .inactive => (20000, "Inactive")
  | .locked => (pollSuspendMs, "Locked")

def stateChar : ActivityState → Char
  | .active => 'A'
  | .passive => 'P'
  | .inactive => 'I'
  | .locked => 'L'

structure SnapshotStage where
  bus : SnapshotBus
  counts : Counts
  recentRecords : List ActivityRecord
  currentState : ActivityState
  currentFocus : Option WindowFocusInfo
  lastTransition : Option Transition
  stateHist : List Char
  retention : Int
  pollMs : Nat
  shutdownRequested : Bool
  hintsComplete : Bool
  storageShutdownSent : Bool
  /-- The loop was left. -/
  stopped : Bool
  deriving DecidableEq, Repr

namespace SnapshotStage

def attachRunId (bus : SnapshotBus) (transition : Transition) : Transition :=
  if transition.runId.isNone then { transition with runId := bus.runId } else transition

@[simp] theorem attachRunId_fromState (bus : SnapshotBus) (transition : Transition) :
    (attachRunId bus transition).fromState = transition.fromState := by
  unfold attachRunId
  split_ifs <;> rfl

@[simp] theorem attachRunId_toState (bus : SnapshotBus) (transition : Transition) :
    (attachRunId bus transition).toState = transition.toState := by
  unfold attachRunId
  split_ifs <;> rfl

@[simp] theorem attachRunId_atTime (bus : SnapshotBus) (transition : Transition) :
    (attachRunId bus transition).atTime = transition.atTime := by
  unfold attachRunId
  split_ifs <;> rfl

/-! ### Messages -/

/-- A title is taken over only by the window it belongs to. -/
def retitle (focus : WindowFocusInfo) (windowId : Nat) (title : String) : WindowFocusInfo :=
  if focus.windowId = windowId then focus.setTitle title else focus

/-- The focus after an update: its focus first, then its title. -/
def focusAfter (update : SnapshotUpdate) (focus : Option WindowFocusInfo) : Option WindowFocusInfo :=
  match update.focusTitle with
  | some (windowId, title) => (update.focus.or focus).map (retitle · windowId title)
  | none => update.focus.or focus

def applyUpdate (self : SnapshotStage) (update : SnapshotUpdate) : SnapshotStage × List Packet :=
  let counts := { self.counts with
    hintsSeen := satAdd self.counts.hintsSeen update.hintsDelta
    signalsSeen := satAdd self.counts.signalsSeen update.signalsDelta }
  let applied := { self with
    counts
    currentState := update.state.getD self.currentState
    currentFocus := focusAfter update self.currentFocus }
  match update.transition with
  | some transition =>
    let transition := attachRunId self.bus transition
    ({ applied with
        bus := self.bus.pushTransition transition
        lastTransition := some transition },
      [⟨.storage, .transition transition⟩])
  | none => (applied, [])

def updateRecords (self : SnapshotStage) (record : ActivityRecord) : SnapshotStage :=
  let ch := stateChar record.state
  let stateHist :=
    if self.stateHist.getLast? = some ch then self.stateHist
    else
      let pushed := self.stateHist ++ [ch]
      if 10 < pushed.length then pushed.tail else pushed
  { self with
    stateHist
    recentRecords := self.recentRecords ++ [record]
    counts := { self.counts with recordsEmitted := satAdd self.counts.recordsEmitted 1 } }

/-- Drop the records at the front that ended before the retained period, and publish. -/
def publishSnapshot (self : SnapshotStage) (now : DateTime) : SnapshotStage :=
  let since := now - self.retention
  let recentRecords := self.recentRecords.dropWhile fun front => front.endTime.getD now < since
  let pace := cadence self.currentState
  { self with
    recentRecords
    pollMs := pace.1
    bus := self.bus.publishBasic self.currentState self.currentFocus self.lastTransition
      recentRecords self.counts pace.1 pace.2 }

def maybeFinalize (self : SnapshotStage) (shutdownRequested hintsComplete : Bool)
    (now : DateTime) : SnapshotStage × List Packet :=
  if !shutdownRequested || !hintsComplete || self.storageShutdownSent then
    (self, [])
  else
    ({ self.publishSnapshot now with storageShutdownSent := true, stopped := true },
      [⟨.storage, .shutdown⟩])

/-- One turn of the stage's loop; without a message the channel is disconnected. -/
def handle (self : SnapshotStage) (now : DateTime) :
    Option SnapshotMessage → SnapshotStage × List Packet
  | some (.update update) => self.applyUpdate update
  | some (.record record) => (self.updateRecords record, [])
  | some .publish => (self.publishSnapshot now, [])
  | some .hintsComplete =>
    let self := { self with hintsComplete := true }
    self.maybeFinalize self.shutdownRequested self.hintsComplete now
  | some .shutdown =>
    let self := { self with shutdownRequested := true }
    self.maybeFinalize self.shutdownRequested self.hintsComplete now
  | none =>
    let finalized :=
      if !self.storageShutdownSent then self.maybeFinalize true true now else (self, [])
    ({ finalized.1 with stopped := true }, finalized.2)

/-- The stage's loop over what it receives, each with the reading of the clock. -/
def loop : Transducer SnapshotStage (DateTime × Option SnapshotMessage) Packet :=
  fun self i => self.handle i.1 i.2

/-! ### What a message can change -/

/-- Nothing but the counters, the records and the publication differs. -/
structure SameView (stage next : SnapshotStage) : Prop where
  transitions : next.bus.transitions = stage.bus.transitions
  runId : next.bus.runId = stage.bus.runId
  currentState : next.currentState = stage.currentState
  currentFocus : next.currentFocus = stage.currentFocus
  lastTransition : next.lastTransition = stage.lastTransition

theorem maybeFinalize_view (self : SnapshotStage) (shutdownRequested hintsComplete : Bool)
    (now : DateTime) :
    self.SameView (self.maybeFinalize shutdownRequested hintsComplete now).1 ∧
      transitionsOf (self.maybeFinalize shutdownRequested hintsComplete now).2 = [] := by
  unfold maybeFinalize
  split_ifs
  · exact ⟨⟨rfl, rfl, rfl, rfl, rfl⟩, rfl⟩
  · exact ⟨⟨rfl, rfl, rfl, rfl, rfl⟩, rfl⟩

/-- The update among what one turn of the loop receives. -/
def updateOf (i : DateTime × Option SnapshotMessage) : Option SnapshotUpdate := i.2.bind asUpdate

theorem loop_of_not_update (self : SnapshotStage) {i : DateTime × Option SnapshotMessage}
    (h : updateOf i = none) :
    self.SameView (self.loop i).1 ∧ transitionsOf (self.loop i).2 = [] := by
  match i with
  | (_, some (.update update)) => cases h
  | (_, some (.record record)) => exact ⟨⟨rfl, rfl, rfl, rfl, rfl⟩, rfl⟩
  | (_, some .publish) => exact ⟨⟨rfl, rfl, rfl, rfl, rfl⟩, rfl⟩
  | (now, some .hintsComplete) =>
    obtain ⟨⟨h1, h2, h3, h4, h5⟩, h6⟩ :=
      maybeFinalize_view { self with hintsComplete := true } self.shutdownRequested true now
    exact ⟨⟨h1, h2, h3, h4, h5⟩, h6⟩
  | (now, some .shutdown) =>
    obtain ⟨⟨h1, h2, h3, h4, h5⟩, h6⟩ :=
      maybeFinalize_view { self with shutdownRequested := true } true self.hintsComplete now
    exact ⟨⟨h1, h2, h3, h4, h5⟩, h6⟩
  | (now, none) =>
    unfold loop handle
    dsimp only
    split_ifs
    · obtain ⟨⟨h1, h2, h3, h4, h5⟩, h6⟩ := maybeFinalize_view self true true now
      exact ⟨⟨h1, h2, h3, h4, h5⟩, h6⟩
    · exact ⟨⟨rfl, rfl, rfl, rfl, rfl⟩, rfl⟩

theorem loop_of_update (self : SnapshotStage) {i : DateTime × Option SnapshotMessage}
    {update : SnapshotUpdate} (h : updateOf i = some update) :
    self.loop i = self.applyUpdate update := by
  obtain ⟨now, _ | (_ | _ | _ | _ | _)⟩ := i <;> cases h
  rfl

theorem applyUpdate_transitions (self : SnapshotStage) (update : SnapshotUpdate) :
    transitionsOf (self.applyUpdate update).2 =
        update.transition.toList.map (attachRunId self.bus) ∧
      (self.applyUpdate update).1.bus.transitions =
        (transitionsOf (self.applyUpdate update).2).foldl (Ring.push 64) self.bus.transitions ∧
      (self.applyUpdate update).1.bus.runId = self.bus.runId ∧
      (self.applyUpdate update).1.currentState = update.state.getD self.currentState := by
  unfold applyUpdate
  cases update.transition <;> exact ⟨rfl, rfl, rfl, rfl⟩

theorem loop_step (self : SnapshotStage) (i : DateTime × Option SnapshotMessage) :
    transitionsOf (self.loop i).2 =
        ((updateOf i).bind (·.transition)).toList.map (attachRunId self.bus) ∧
      (self.loop i).1.bus.transitions =
        (transitionsOf (self.loop i).2).foldl (Ring.push 64) self.bus.transitions ∧
      (self.loop i).1.bus.runId = self.bus.runId ∧
      (self.loop i).1.currentState = ((updateOf i).bind (·.state)).getD self.currentState := by
  cases hupdate : updateOf i with
  | none =>
    obtain ⟨hview, hsent⟩ := loop_of_not_update self hupdate
    rw [hsent]
    exact ⟨rfl, hview.transitions, hview.runId, hview.currentState⟩
  | some update =>
    rw [loop_of_update self hupdate]
    exact applyUpdate_transitions self update

theorem attachRunId_congr {bus bus' : SnapshotBus} (h : bus.runId = bus'.runId) :
    attachRunId bus = attachRunId bus' := by
  funext transition
  rw [attachRunId, attachRunId, h]

theorem loop_transitions (self : SnapshotStage) (is : List (DateTime × Option SnapshotMessage)) :
    transitionsOf (loop.run self is).2 =
        ((is.filterMap updateOf).filterMap (·.transition)).map (attachRunId self.bus) ∧
      (loop.run self is).1.bus.transitions =
        (transitionsOf (loop.run self is).2).foldl (Ring.push 64) self.bus.transitions := by
  rw [List.filterMap_filterMap]
  induction is generalizing self with
  | nil => exact ⟨rfl, rfl⟩
  | cons i is ih =>
    obtain ⟨hsent, hpush, hrunId, -⟩ := loop_step self i
    obtain ⟨hstored, hpushed⟩ := ih (self.loop i).1
    rw [Transducer.run_cons_fst, Transducer.run_cons_snd, transitionsOf_append, List.foldl_append,
      hpushed, hpush, hstored, hsent, attachRunId_congr hrunId, List.filterMap_cons]
    refine ⟨?_, rfl⟩
    cases (updateOf i).bind (·.transition) <;> rfl

theorem loop_currentState (self : SnapshotStage) (is : List (DateTime × Option SnapshotMessage)) :
    (loop.run self is).1.currentState =
      (((is.filterMap updateOf).filterMap (·.state)).getLast?).getD self.currentState := by
  rw [List.filterMap_filterMap]
  induction is generalizing self with
  | nil => rfl
  | cons i is ih =>
    obtain ⟨-, -, -, hstate⟩ := loop_step self i
    rw [Transducer.run_cons_fst, ih, hstate, List.filterMap_cons]
    cases (updateOf i).bind (·.state) with
    | none => rfl
    | some state =>
      rw [List.getLast?_cons]
      rfl

/-- The record among what one turn of the loop receives. -/
def recordOf (i : DateTime × Option SnapshotMessage) : Option ActivityRecord := i.2.bind asEmitted

theorem maybeFinalize_counts (self : SnapshotStage) (shutdownRequested hintsComplete : Bool)
    (now : DateTime) :
    (self.maybeFinalize shutdownRequested hintsComplete now).1.counts = self.counts := by
  unfold maybeFinalize
  split_ifs <;> rfl

theorem loop_step_counts (self : SnapshotStage) (i : DateTime × Option SnapshotMessage) :
    (self.loop i).1.counts =
      { signalsSeen := satAdd self.counts.signalsSeen
          ((updateOf i).toList.map (·.signalsDelta)).sum
        hintsSeen := satAdd self.counts.hintsSeen ((updateOf i).toList.map (·.hintsDelta)).sum
        recordsEmitted := satAdd self.counts.recordsEmitted (recordOf i).toList.length } := by
  have hnone : ∀ stage : SnapshotStage, stage.counts = self.counts →
      stage.counts = { signalsSeen := satAdd self.counts.signalsSeen 0
                       hintsSeen := satAdd self.counts.hintsSeen 0
                       recordsEmitted := satAdd self.counts.recordsEmitted 0 } := by
    intro stage hstage
    rw [satAdd_zero, satAdd_zero, satAdd_zero, hstage]
  match i with
  | (now, some (.update update)) =>
    show (self.applyUpdate update).1.counts =
      { signalsSeen := satAdd _ ([update.signalsDelta].sum)
        hintsSeen := satAdd _ ([update.hintsDelta].sum), recordsEmitted := satAdd _ 0 }
    rw [satAdd_zero, List.sum_singleton, List.sum_singleton]
    unfold applyUpdate
    cases update.transition <;> rfl
  | (now, some (.record record)) =>
    show ({ self.counts with recordsEmitted := _ } : Counts) =
      { signalsSeen := satAdd _ 0, hintsSeen := satAdd _ 0, recordsEmitted := satAdd _ 1 }
    rw [satAdd_zero, satAdd_zero]
  | (now, some .publish) => exact hnone _ rfl
  | (now, some .hintsComplete) => exact hnone _ (maybeFinalize_counts _ _ _ now)
  | (now, some .shutdown) => exact hnone _ (maybeFinalize_counts _ _ _ now)
  | (now, none) =>
    refine hnone _ ?_
    unfold loop handle
    dsimp only
    split_ifs
    · exact maybeFinalize_counts self true true now
    · rfl

theorem loop_counts (self : SnapshotStage) (is : List (DateTime × Option SnapshotMessage)) :
    (loop.run self is).1.counts =
      { signalsSeen := satAdd self.counts.signalsSeen
          ((is.filterMap updateOf).map (·.signalsDelta)).sum
        hintsSeen := satAdd self.counts.hintsSeen ((is.filterMap updateOf).map (·.hintsDelta)).sum
        recordsEmitted := satAdd self.counts.recordsEmitted (is.filterMap recordOf).length } := by
  induction is generalizing self with
  | nil => simp [satAdd_zero]
  | cons i is ih =>
    rw [Transducer.run_cons_fst, ih, loop_step_counts, List.filterMap_cons, List.filterMap_cons]
    simp only [satAdd_satAdd]
    cases updateOf i <;> cases recordOf i <;> simp [Nat.add_comm]

/-! ### The start -/

/-- One stored transition is taken over. -/
def hydrate (self : SnapshotStage) (transition : Transition) : SnapshotStage :=
  let transition := attachRunId self.bus transition
  { self with
    currentState := transition.toState
    lastTransition := some transition
    bus := self.bus.pushTransition transition }

/-- The stage at its first receive: stored records and transitions taken over, and published. -/
def new (bus : SnapshotBus) (retentionMinutes : Nat) (initialRecords : List ActivityRecord)
    (initialTransitions : List Transition) (now : DateTime) : SnapshotStage :=
  let fresh : SnapshotStage :=
    { bus, counts := .default, recentRecords := initialRecords, currentState := .inactive,
      currentFocus := none, lastTransition := none, stateHist := [],
      retention := minutes retentionMinutes, pollMs := 0, shutdownRequested := false,
      hintsComplete := false, storageShutdownSent := false, stopped := false }
  (initialTransitions.foldl hydrate fresh).publishSnapshot now

end SnapshotStage

end Kronical
