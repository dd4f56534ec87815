import Kronical.Core.RealTime
import Kronical.Lib.SlidingWindow
import Kronical.Pipeline.Publish

/-!
# Retention

The stage drops records only from the front of its queue, and stops at the first one that has not expired.
Records tile a session and sessions follow each other, so their ends never decrease, and if the clock does
not go backwards, the queue is a sliding window over all records: what is published are just those that
ended within the retained period (`retention_keeps_window`).
-/

namespace Kronical

/-- Records that have all ended, one at or before the start of the next. -/
structure SessionRecords (records : List ActivityRecord) : Prop where
  ended : ∀ record ∈ records, record.endTime.isSome
  tiled : TiledRecords records

theorem RecordBuilder.sessionRecords_emitted (initialState : ActivityState) (nextRecordId : Nat)
    (hints : List (EventEnvelope × HintClock)) (final : DateTime)
    (hclock : ((withNextRecordId initialState nextRecordId).sessionReadings hints final).Pairwise
      (· ≤ ·)) :
    SessionRecords ((withNextRecordId initialState nextRecordId).emitted hints final) where
  ended := by
    intro record hrecord
    obtain ⟨before, rest, -, -, current, -, ended, rfl⟩ := emitted_closed hrecord
    rfl
  tiled := tiled_emitted initialState nextRecordId hints final hclock

/-- When a record ended. -/
def endOf (record : ActivityRecord) : DateTime := record.endTime.getD 0

namespace SessionRecords

variable {records later : List ActivityRecord}

theorem endTime_eq (h : SessionRecords records) {record : ActivityRecord} (hrecord : record ∈ records) :
    record.endTime = some (endOf record) := by
  obtain ⟨ended, hend⟩ := Option.isSome_iff_exists.mp (h.ended record hrecord)
  rw [endOf, hend]
  rfl

theorem start_le_end (h : SessionRecords records) {record : ActivityRecord} (hrecord : record ∈ records) :
    record.startTime ≤ endOf record := h.tiled.1 record hrecord _ (h.endTime_eq hrecord)

theorem ends_sorted (h : SessionRecords records) :
    records.Pairwise fun record next => endOf record ≤ endOf next := by
  refine h.tiled.pairwise.imp_of_mem ?_
  rintro record next hrecord hnext ⟨ended, hended, hle⟩
  rw [h.endTime_eq hrecord] at hended
  rw [Option.some.inj hended]
  exact hle.trans (h.start_le_end hnext)

theorem ends_sorted_append (h : SessionRecords records) (hlater : SessionRecords later)
    (hfollows : ∀ record ∈ records, ∀ next ∈ later, endOf record ≤ next.startTime) :
    (records ++ later).Pairwise fun record next => endOf record ≤ endOf next :=
  List.pairwise_append.mpr ⟨h.ends_sorted, hlater.ends_sorted, fun record hrecord next hnext =>
    (hfollows record hrecord next hnext).trans (hlater.start_le_end hnext)⟩

end SessionRecords

namespace SnapshotStage

/-! ### What one message does to the records -/

/-- The message makes the stage publish. -/
def Publishes (self : SnapshotStage) (i : DateTime × Option SnapshotMessage) : Prop :=
  (self.loop i).1.bus.seq ≠ self.bus.seq

theorem publishes_publish (self : SnapshotStage) (now : DateTime) :
    self.Publishes (now, some .publish) := Nat.succ_ne_self self.bus.seq

/-- The stage has taken over a record, if there is one, and has not published. -/
structure Takes (stage next : SnapshotStage) (record : Option ActivityRecord) : Prop where
  records : next.recentRecords = stage.recentRecords ++ record.toList
  seq : next.bus.seq = stage.bus.seq
  retention : next.retention = stage.retention

/-- The stage has dropped the records at its front that ended before the retained period, and has published
the others. -/
structure Prunes (stage next : SnapshotStage) (now : DateTime) : Prop where
  records : next.recentRecords =
    stage.recentRecords.dropWhile fun front => front.endTime.getD now < now - stage.retention
  published : next.bus.snapshot.records = next.recentRecords
  retention : next.retention = stage.retention

theorem takes_none {stage next : SnapshotStage} (hrecords : next.recentRecords = stage.recentRecords)
    (hseq : next.bus.seq = stage.bus.seq) (hretention : next.retention = stage.retention) :
    stage.Takes next none := ⟨hrecords.trans (List.append_nil _).symm, hseq, hretention⟩

theorem prunes_publishSnapshot (self : SnapshotStage) (now : DateTime) :
    self.Prunes (self.publishSnapshot now) now := ⟨rfl, rfl, rfl⟩

theorem takes_applyUpdate (self : SnapshotStage) (update : SnapshotUpdate) :
    self.Takes (self.applyUpdate update).1 none := by
  unfold applyUpdate
  cases update.transition with
  | none => exact takes_none rfl rfl rfl
  | some transition => exact takes_none rfl rfl rfl

theorem maybeFinalize_records (self : SnapshotStage) (shutdownRequested hintsComplete : Bool)
    (now : DateTime) :
    self.Takes (self.maybeFinalize shutdownRequested hintsComplete now).1 none ∨
      self.Prunes (self.maybeFinalize shutdownRequested hintsComplete now).1 now := by
  unfold maybeFinalize
  split_ifs
  · exact Or.inl (takes_none rfl rfl rfl)
  · exact Or.inr ⟨rfl, rfl, rfl⟩

theorem loop_records (self : SnapshotStage) (i : DateTime × Option SnapshotMessage) :
    self.Takes (self.loop i).1 (recordOf i) ∨
      (recordOf i = none ∧ self.Prunes (self.loop i).1 i.1) := by
  match i with
  | (now, some (.update update)) => exact Or.inl (self.takes_applyUpdate update)
  | (now, some (.record record)) => exact Or.inl ⟨rfl, rfl, rfl⟩
  | (now, some .publish) => exact Or.inr ⟨rfl, self.prunes_publishSnapshot now⟩
  | (now, some .hintsComplete) =>
    rcases maybeFinalize_records { self with hintsComplete := true } self.shutdownRequested true now with
      ⟨hrecords, hseq, hretention⟩ | ⟨hrecords, hpublished, hretention⟩
    · exact Or.inl ⟨hrecords, hseq, hretention⟩
    · exact Or.inr ⟨rfl, hrecords, hpublished, hretention⟩
  | (now, some .shutdown) =>
    rcases maybeFinalize_records { self with shutdownRequested := true } true self.hintsComplete now with
      ⟨hrecords, hseq, hretention⟩ | ⟨hrecords, hpublished, hretention⟩
    · exact Or.inl ⟨hrecords, hseq, hretention⟩
    · exact Or.inr ⟨rfl, hrecords, hpublished, hretention⟩
  | (now, none) =>
    unfold loop handle
    dsimp only
    split_ifs
    · rcases maybeFinalize_records self true true now with htakes | hprunes
      · exact Or.inl ⟨htakes.records, htakes.seq, htakes.retention⟩
      · exact Or.inr ⟨rfl, hprunes.records, hprunes.published, hprunes.retention⟩
    · exact Or.inl (takes_none rfl rfl rfl)

/-! ### The queue as a window -/

/-- Of all records, the stage has dropped only some that ended before the retained period at `now`. -/
def Retains (self : SnapshotStage) (records : List ActivityRecord) (now : DateTime) : Prop :=
  SlidingWindow.Holds endOf records self.recentRecords (now - self.retention)

/-- The records that ended within the retained period. -/
def retained (retention : Int) (records : List ActivityRecord) (now : DateTime) : List ActivityRecord :=
  records.filter fun record => record.endTime.any (now - retention ≤ ·)

section Window

variable {stage next : SnapshotStage} {records : List ActivityRecord} {now later : DateTime}

theorem Retains.mono (h : stage.Retains records now) (hlater : now ≤ later) :
    stage.Retains records later :=
  SlidingWindow.Holds.mono h (sub_le_sub_right hlater _)

theorem Retains.take (h : stage.Retains records now) {record : Option ActivityRecord}
    (hnext : stage.Takes next record) : next.Retains (records ++ record.toList) now := by
  rw [Retains, hnext.records, hnext.retention]
  exact SlidingWindow.Holds.push h _

theorem dropWhile_endTime (hended : ∀ record ∈ records, record.endTime.isSome) (now since : DateTime) :
    (records.dropWhile fun front => front.endTime.getD now < since) =
      records.dropWhile (endOf · < since) := by
  induction records with
  | nil => rfl
  | cons record records ih =>
    obtain ⟨ended, hend⟩ := Option.isSome_iff_exists.mp (hended record List.mem_cons_self)
    have hrest := ih fun r hr => hended r (List.mem_cons_of_mem _ hr)
    rw [List.dropWhile_cons, List.dropWhile_cons, hrest, endOf, hend]
    rfl

theorem filter_endTime (hended : ∀ record ∈ records, record.endTime.isSome) (retention : Int) :
    retained retention records now = records.filter (now - retention ≤ endOf ·) := by
  refine List.filter_congr fun record hrecord => ?_
  obtain ⟨ended, hend⟩ := Option.isSome_iff_exists.mp (hended record hrecord)
  rw [endOf, hend]
  rfl

theorem Retains.prune (h : stage.Retains records now)
    (hended : ∀ record ∈ records, record.endTime.isSome)
    (hsorted : records.Pairwise fun record next => endOf record ≤ endOf next)
    (hnext : stage.Prunes next now) :
    next.Retains records now ∧ next.bus.snapshot.records = retained stage.retention records now := by
  have hrecent : ∀ record ∈ stage.recentRecords, record.endTime.isSome := by
    obtain ⟨dropped, hsplit, -⟩ := h
    exact fun record hrecord => hended record (hsplit ▸ List.mem_append_right _ hrecord)
  have hrecords : next.recentRecords =
      stage.recentRecords.dropWhile (endOf · < now - stage.retention) :=
    hnext.records.trans (dropWhile_endTime hrecent _ _)
  constructor
  · rw [Retains, hnext.retention, hrecords]
    exact SlidingWindow.Holds.dropWhile h
  · rw [hnext.published, hrecords, filter_endTime hended]
    exact SlidingWindow.Holds.dropWhile_eq h hsorted

end Window

theorem loop_run_retention (self : SnapshotStage) (inputs : List (DateTime × Option SnapshotMessage)) :
    (loop.run self inputs).1.retention = self.retention := by
  refine Transducer.run_state (I := fun stage : SnapshotStage => stage.retention = self.retention)
    (fun stage i h => ?_) inputs rfl
  rcases stage.loop_records i with htakes | ⟨-, hprunes⟩
  · exact htakes.retention.trans h
  · exact hprunes.retention.trans h

theorem retains_run {stage : SnapshotStage} {records : List ActivityRecord} {start : DateTime}
    (h : stage.Retains records start) (inputs : List (DateTime × Option SnapshotMessage))
    (hended : ∀ record ∈ records ++ inputs.filterMap recordOf, record.endTime.isSome)
    (hsorted : (records ++ inputs.filterMap recordOf).Pairwise
      fun record next => endOf record ≤ endOf next)
    (hclock : (start :: inputs.map (·.1)).Pairwise (· ≤ ·)) {now : DateTime}
    (hnow : ∀ reading ∈ start :: inputs.map (·.1), reading ≤ now) :
    (loop.run stage inputs).1.Retains (records ++ inputs.filterMap recordOf) now := by
  induction inputs using List.reverseRecOn generalizing now with
  | nil =>
    rw [List.filterMap_nil, List.append_nil]
    exact h.mono (hnow start List.mem_cons_self)
  | append_singleton inputs i ih =>
    rw [List.map_append, ← List.cons_append] at hclock hnow
    obtain ⟨hclock, -, hbefore⟩ := List.pairwise_append.mp hclock
    rw [List.filterMap_append, ← List.append_assoc] at hended hsorted ⊢
    have hfront := ih (fun r hr => hended r (List.mem_append_left _ hr))
      (List.pairwise_append.mp hsorted).1 hclock
      (fun reading hreading => hbefore reading hreading i.1 (by simp))
    have hlater : i.1 ≤ now := hnow i.1 (by simp)
    have hrecord : [i].filterMap recordOf = (recordOf i).toList := by
      rw [List.filterMap_cons]
      cases recordOf i <;> rfl
    rw [Transducer.run_concat]
    rw [hrecord] at hended hsorted ⊢
    rcases (loop.run stage inputs).1.loop_records i with htakes | ⟨hnone, hprunes⟩
    · exact (hfront.take htakes).mono hlater
    · rw [hnone, Option.toList_none, List.append_nil] at hended hsorted ⊢
      exact (hfront.prune hended hsorted hprunes).1.mono hlater

theorem foldl_hydrate_records (self : SnapshotStage) (transitions : List Transition) :
    (transitions.foldl hydrate self).recentRecords = self.recentRecords ∧
      (transitions.foldl hydrate self).retention = self.retention := by
  induction transitions generalizing self with
  | nil => exact ⟨rfl, rfl⟩
  | cons t ts ih => exact ih (self.hydrate t)

theorem new_retains (bus : SnapshotBus) (retentionMinutes : Nat) {hydrated : List ActivityRecord}
    (transitions : List Transition) (start : DateTime) (hhydrated : SessionRecords hydrated) :
    let stage := new bus retentionMinutes hydrated transitions start
    stage.Retains hydrated start ∧ stage.retention = minutes retentionMinutes ∧
      stage.bus.snapshot.records = retained (minutes retentionMinutes) hydrated start := by
  intro stage
  let fresh : SnapshotStage :=
    { bus, counts := .default, recentRecords := hydrated, currentState := .inactive,
      currentFocus := none, lastTransition := none, stateHist := [],
      retention := minutes retentionMinutes, pollMs := 0, shutdownRequested := false,
      hintsComplete := false, storageShutdownSent := false, stopped := false }
  obtain ⟨hrecords, hretention⟩ := fresh.foldl_hydrate_records transitions
  have hholds : (transitions.foldl hydrate fresh).Retains hydrated start := by
    rw [Retains, hrecords]
    exact SlidingWindow.Holds.refl hydrated _
  have hpruned := hholds.prune hhydrated.ended hhydrated.ends_sorted
    ((transitions.foldl hydrate fresh).prunes_publishSnapshot start)
  rw [hretention] at hpruned
  exact ⟨hpruned.1, hretention, hpruned.2⟩

end SnapshotStage

open SnapshotStage in
/-- For every bus, retention, stored transitions and messages, every hydrated and received records that tile
their sessions, the received ones behind the hydrated ones, and readings of the clock that never decrease:
the first snapshot and the one that any message makes the stage publish show, in order, just those of the
hydrated records and the records received before it that ended within the retained period. -/
theorem retention_keeps_window (bus : SnapshotBus) (retentionMinutes : Nat)
    (hydrated : List ActivityRecord) (transitions : List Transition) (start : DateTime)
    (inputs : List (DateTime × Option SnapshotMessage)) (hhydrated : SessionRecords hydrated)
    (hreceived : SessionRecords (inputs.filterMap recordOf))
    (hfollows : ∀ record ∈ hydrated, ∀ ended ∈ record.endTime, ∀ next ∈ inputs.filterMap recordOf,
      ended ≤ next.startTime)
    (hclock : (start :: inputs.map (·.1)).Pairwise (· ≤ ·)) :
    let stage := SnapshotStage.new bus retentionMinutes hydrated transitions start
    stage.bus.snapshot.records = retained (minutes retentionMinutes) hydrated start ∧
      ∀ before i after, inputs = before ++ i :: after → (loop.run stage before).1.Publishes i →
        (loop.run stage (before ++ [i])).1.bus.snapshot.records =
          retained (minutes retentionMinutes) (hydrated ++ before.filterMap recordOf) i.1 := by
  intro stage
  obtain ⟨hretains, hretention, hfirst⟩ :=
    new_retains bus retentionMinutes transitions start hhydrated
  refine ⟨hfirst, ?_⟩
  rintro before i after rfl hpublishes
  have hsorted := hhydrated.ends_sorted_append hreceived fun record hrecord =>
    hfollows record hrecord _ (hhydrated.endTime_eq hrecord)
  have hended : ∀ record ∈ hydrated ++ (before ++ i :: after).filterMap recordOf,
      record.endTime.isSome := fun record hrecord =>
    (List.mem_append.mp hrecord).elim (hhydrated.ended record) (hreceived.ended record)
  -- Of the run only the messages up to the publication count.
  rw [List.filterMap_append, ← List.append_assoc] at hsorted hended
  rw [List.map_append, ← List.cons_append] at hclock
  obtain ⟨hclock, -, hbefore⟩ := List.pairwise_append.mp hclock
  have hwindow := retains_run hretains before (fun r hr => hended r (List.mem_append_left _ hr))
    (List.pairwise_append.mp hsorted).1 hclock
    (fun reading hreading => hbefore reading hreading i.1 (by simp))
  rcases (loop.run stage before).1.loop_records i with htakes | ⟨-, hprunes⟩
  · exact absurd htakes.seq hpublishes
  · rw [Transducer.run_concat]
    have hshown := (hwindow.prune (fun r hr => hended r (List.mem_append_left _ hr))
      (List.pairwise_append.mp hsorted).1 hprunes).2
    rwa [loop_run_retention, hretention] at hshown

/-- With a minute's retention: a second after the hydrated record has expired, only the received one is
shown. -/
theorem retention_keeps_window_minute :
    ((SnapshotStage.loop.run
      (.new (.new none) 1 [⟨1, none, 0, some 1000000000, .active, none, 0, []⟩] [] 2000000000)
      [(4000000000, some (.record ⟨2, none, 2000000000, some 3000000000, .active, none, 0, []⟩)),
        (62000000000, some .publish)]).1.bus.snapshot.records.map (·.recordId)) = [2] := by
  have hwindow := (retention_keeps_window (.new none) 1
    [⟨1, none, 0, some 1000000000, .active, none, 0, []⟩] [] 2000000000
    [(4000000000, some (.record ⟨2, none, 2000000000, some 3000000000, .active, none, 0, []⟩)),
      (62000000000, some .publish)]
    ⟨by decide, by decide, by decide⟩ ⟨by decide, by decide, by decide⟩ (by decide) (by decide)).2
  exact (congrArg _ (hwindow [_] _ [] rfl (SnapshotStage.publishes_publish _ _))).trans (by decide)

end Kronical
