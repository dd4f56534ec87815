import Kronical.Pipeline.Retention
import Kronical.Storage.SessionRows
import Kronical.Storage.TimeFilters

/-!
# The records behind a restart

A session that is started again in the same run reads the records of the one before back from the database.
It has them without their events, which nothing that is shown depends on: the first snapshot has the records
that ended within the retained period, and the times of the apps are those that all records of the session
before add up to (`restart_shows_session`).
-/

namespace Kronical

/-! ### A record and its row -/

/-- What `fetch_records_since` makes of a row. -/
def readRecord (row : RecordRow) : ActivityRecord :=
  { recordId := asU64 row.recordId, runId := row.runId, startTime := row.startTime, endTime := row.endTime,
    state := parseStateLabel row.state, focusInfo := row.focusInfo, eventCount := 0,
    triggeringEvents := [] }

/-- The record without its events. -/
def reread (r : ActivityRecord) : ActivityRecord := { r with eventCount := 0, triggeringEvents := [] }

theorem readRecord_recordRow {r : ActivityRecord} (h : r.recordId < 2 ^ 64) :
    readRecord (recordRow r) = reread r := by
  simp only [readRecord, recordRow, reread, asU64_asI64 h, parseStateLabel_debug]

/-- The records that a reader of the database gets, before it selects some. -/
def Database.records (self : Database) : List ActivityRecord :=
  (self.visible.filterMap Row.activityRecord).map readRecord

/-! ### What keeps the times of records -/

theorem SessionRecords.map {records : List ActivityRecord} (h : SessionRecords records)
    (f : ActivityRecord → ActivityRecord) (hstart : ∀ r, (f r).startTime = r.startTime)
    (hend : ∀ r, (f r).endTime = r.endTime) : SessionRecords (records.map f) := by
  refine ⟨?_, ?_, ?_⟩
  · intro record hrecord
    obtain ⟨r, hr, rfl⟩ := List.mem_map.mp hrecord
    rw [hend]
    exact h.ended r hr
  · intro record hrecord ended hended
    obtain ⟨r, hr, rfl⟩ := List.mem_map.mp hrecord
    rw [hend] at hended
    rw [hstart]
    exact h.tiled.1 r hr ended hended
  · refine (List.isChain_map f).mpr (h.tiled.2.imp ?_)
    rintro record next ⟨ended, hended, hle⟩
    exact ⟨ended, by rwa [hend], by rwa [hstart]⟩

theorem SessionRecords.filter {records : List ActivityRecord} (h : SessionRecords records)
    (p : ActivityRecord → Bool) : SessionRecords (records.filter p) := by
  refine ⟨fun record hrecord => h.ended record (List.mem_filter.mp hrecord).1, ?_, ?_⟩
  · exact fun record hrecord => h.tiled.1 record (List.mem_filter.mp hrecord).1
  · exact (h.tiled.pairwise.filter p).isChain

theorem SessionRecords.starts_sorted {records : List ActivityRecord} (h : SessionRecords records) :
    records.Pairwise fun record next => record.startTime ≤ next.startTime := by
  refine h.tiled.pairwise.imp_of_mem ?_
  rintro record next hrecord - ⟨ended, hended, hle⟩
  exact (h.tiled.1 record hrecord ended hended).trans hle

theorem SessionRecords.fetched {records : List ActivityRecord} (h : SessionRecords records)
    {runId : String} {others : List ActivityRecord} (hothers : ∀ record ∈ others, record.runId ≠ some runId)
    (hrun : ∀ record ∈ records, record.runId = some runId)
    (hyears : ∀ record ∈ records, InYears record.startTime ∧ ∀ ended ∈ record.endTime, InYears ended)
    (retention : Int) {now : DateTime} (hsince : InYears (now - retention)) :
    Backend.sqlite.fetchRecordsSince toRfc3339 (others ++ records) (now - retention) (some runId) =
      SnapshotStage.retained retention records now := by
  have hnone : others.filter (Backend.sqlite.recordMatches toRfc3339 (now - retention) (some runId)) = [] := by
    refine List.filter_eq_nil_iff.mpr fun record hrecord => ?_
    simp [Backend.recordMatches, hothers record hrecord]
  have hfilter : records.filter (Backend.sqlite.recordMatches toRfc3339 (now - retention) (some runId)) =
      SnapshotStage.retained retention records now := by
    refine List.filter_congr fun record hrecord => ?_
    obtain ⟨ended, hended⟩ := Option.isSome_iff_exists.mp (h.ended record hrecord)
    have hyear := (hyears record hrecord).2 ended hended
    simp [Backend.recordMatches, hended, hrun record hrecord, Backend.sqlite_le hsince hyear]
  rw [Backend.fetchRecordsSince, List.filter_append, hnone, List.nil_append, hfilter]
  -- The rows are in the order of their starts already.
  refine List.Pairwise.insertionSort_eq ?_
  refine ((h.filter _).starts_sorted).imp_of_mem fun hrecord hnext hle => ?_
  have hyear := hyears _ (List.mem_filter.mp hrecord).1
  have hyear' := hyears _ (List.mem_filter.mp hnext).1
  exact (Backend.sqlite_le_iff hyear.1 hyear'.1).mpr hle

theorem retained_map (f : ActivityRecord → ActivityRecord) (hend : ∀ r, (f r).endTime = r.endTime)
    (retention : Int) (records : List ActivityRecord) (now : DateTime) :
    SnapshotStage.retained retention (records.map f) now =
      (SnapshotStage.retained retention records now).map f := by
  simp only [SnapshotStage.retained, List.filter_map]
  congr 1
  refine List.filter_congr fun record _ => ?_
  rw [Function.comp_apply, hend]

theorem retained_retained {retention : Int} {records : List ActivityRecord} {now later : DateTime}
    (h : now ≤ later) :
    SnapshotStage.retained retention (SnapshotStage.retained retention records now) later =
      SnapshotStage.retained retention records later := by
  rw [SnapshotStage.retained, SnapshotStage.retained, List.filter_filter]
  refine List.filter_congr fun record _ => ?_
  cases record.endTime with
  | none => rfl
  | some ended =>
    simp only [Option.any_some, ← Bool.decide_and, decide_eq_decide]
    exact and_iff_left_of_imp fun hlater => (sub_le_sub_right h retention).trans hlater

theorem spans_retained (retention : Int) (records : List ActivityRecord) {now : DateTime}
    (hended : ∀ record ∈ records, record.endTime.isSome) :
    spans (SnapshotStage.retained retention records now) (now - retention) now =
      spans records (now - retention) now := by
  rw [spans, SnapshotStage.retained, spans, List.filterMap_filter]
  refine List.filterMap_congr fun record hrecord => ?_
  obtain ⟨ended, hend⟩ := Option.isSome_iff_exists.mp (hended record hrecord)
  rw [hend, Option.any_some]
  by_cases hretained : now - retention ≤ ended
  · simp [hretained]
  · have hexpired : ended ≤ now - retention := (not_le.mp hretained).le
    simp [hretained, clip, hend, hexpired]

theorem spans_reread (records : List ActivityRecord) (since now : DateTime) :
    spans (records.map reread) since now = spans records since now := by
  rw [spans, List.filterMap_map]
  rfl

/-! ### The restart -/

open Network in
/-- A session has ended, its storage has written everything and is dropped, and the daemon is started again
in the same run. Then the first snapshot has the records of the session that ended within the retained
period, without their events, and they add up to the same apps as all its records do. The rows of other
runs do not matter. -/
theorem restart_shows_session (cfg : PipelineConfig) {runId : String} (hrunId : cfg.runId = some runId)
    {s : Network.Config Stage.Msg Stage.Reading Stage.Local} (hs : (pipeline cfg).Reachable s)
    (hended : ∀ n, (s n).ended = true)
    (hclock : ∀ hints final, (s .hints).inputs = HintsStage.received hints final →
      ((RecordBuilder.withNextRecordId .inactive cfg.nextRecordId).sessionReadings hints
        final.closed).Pairwise (· ≤ ·))
    (hids : ∀ record ∈ recordsOf (s .hints).sent, record.recordId < 2 ^ 64)
    (hyears : ∀ record ∈ recordsOf (s .hints).sent,
      InYears record.startTime ∧ ∀ ended ∈ record.endTime, InYears ended)
    {serde : PayloadSerde} {db : Database} (hdb : (Database.machine serde .sqlite).Reachable db)
    (hgiven : db.given = (s .storage).current.stored) (hfinished : db.finished = true)
    (hok : db.WithoutFailure serde) {others : List ActivityRecord}
    (hothers : ∀ record ∈ others, record.runId ≠ some runId) (retentionMinutes : Nat)
    {fetched start : DateTime} (hsince : InYears (fetched - minutes retentionMinutes))
    (hstart : fetched ≤ start) (bus : SnapshotBus) (transitions : List Transition) :
    let session := recordsOf (s .hints).sent
    let hydrated := Backend.sqlite.fetchRecordsSince toRfc3339 (others ++ db.records)
      (fetched - minutes retentionMinutes) (some runId)
    let shown := (SnapshotStage.new bus retentionMinutes hydrated transitions start).bus.snapshot.records
    shown = (SnapshotStage.retained (minutes retentionMinutes) session start).map reread ∧
      ∀ toLowercase order thresholds,
        aggregateActivitiesSince toLowercase order shown (start - minutes retentionMinutes) start
            thresholds =
          aggregateActivitiesSince toLowercase order session (start - minutes retentionMinutes) start
            thresholds := by
  intro session hydrated shown
  obtain ⟨before, after, harrived, hstored⟩ := shutdown_received hs hended
  obtain ⟨-, hlost⟩ := nothing_lost hs harrived
  -- What the session has stored are the records of its builder, with its run id.
  obtain ⟨hints, final, hinputs⟩ := hints_inputs hs hlost.stopped.2.1
  have hrun := hs.run_eq .hints (core_unrefused hs .hints (.inr (.inr (.inl rfl))))
  rw [hinputs, hlost.silent.2.1, List.append_nil] at hrun
  have hsent : (HintsStage.loop.run (.new cfg.runId cfg.nextRecordId)
      (HintsStage.received hints final)).2 = (s .hints).sent := congrArg Prod.snd hrun
  have hbuilt : session =
      ((RecordBuilder.withNextRecordId .inactive cfg.nextRecordId).emitted hints final.closed).map
        fun record => { record with runId := cfg.runId } := by
    show recordsOf (s .hints).sent = _
    rw [← hsent, (HintsStage.loop_received _ hints final).1]
    rfl
  have htiled : SessionRecords session := by
    rw [hbuilt]
    exact (RecordBuilder.sessionRecords_emitted .inactive cfg.nextRecordId hints final.closed
      (hclock hints final hinputs)).map _ (fun _ => rfl) fun _ => rfl
  have hruns : ∀ record ∈ session, record.runId = some runId := by
    intro record hrecord
    rw [hbuilt] at hrecord
    obtain ⟨r, -, rfl⟩ := List.mem_map.mp hrecord
    exact hrunId
  have hrecords : db.records = session.map reread := by
    have hselect : (before.map Prod.snd).filterMap asRecord = session := by
      refine (select_only (n := .storage) (p := .hints) fun msg hmsg hp => ?_).trans ?_
      · exact storage_records hs (harrived ▸ List.mem_append_left _ hmsg) hp
      · rw [hlost.hints]
        rfl
    rw [Database.records, Database.all_visible hdb hok hfinished, hgiven, hstored, activityRecord_rows,
      hselect, List.map_map]
    exact List.map_congr_left fun record hrecord => readRecord_recordRow (hids record hrecord)
  have hhydrated : hydrated = (SnapshotStage.retained (minutes retentionMinutes) session fetched).map
      reread := by
    have hreread : SessionRecords (session.map reread) := htiled.map reread (fun _ => rfl) fun _ => rfl
    have hfetched := hreread.fetched hothers (List.forall_mem_map.mpr hruns)
      (List.forall_mem_map.mpr hyears) (minutes retentionMinutes) hsince
    show Backend.sqlite.fetchRecordsSince toRfc3339 (others ++ db.records) _ _ = _
    rw [hrecords, hfetched, retained_map reread fun _ => rfl]
  have hshown : shown = (SnapshotStage.retained (minutes retentionMinutes) session start).map reread := by
    have hsession : SessionRecords hydrated := by
      rw [hhydrated]
      exact (htiled.filter _).map reread (fun _ => rfl) fun _ => rfl
    have hfirst := (SnapshotStage.new_retains bus retentionMinutes transitions start hsession).2.2
    rw [show shown = _ from hfirst, hhydrated, retained_map reread fun _ => rfl, retained_retained hstart]
  refine ⟨hshown, fun toLowercase order thresholds => ?_⟩
  rw [hshown, aggregateActivitiesSince, aggregateActivitiesSince, appMap, appMap, spans_reread,
    spans_retained _ _ htiled.ended]

/-- The pipeline of the sample in a run with a name. -/
def namedConfig : PipelineConfig := { plainConfig with runId := some "run-1" }

/-- The hints among the inputs of the stage. -/
def hintsAmong (inputs : List (RecordBuilder.HintClock × Option EventEnvelope)) :
    List (EventEnvelope × RecordBuilder.HintClock) :=
  inputs.filterMap fun input => input.2.map (·, input.1)

theorem hintsAmong_received (hints : List (EventEnvelope × RecordBuilder.HintClock))
    (final : RecordBuilder.HintClock) : hintsAmong (HintsStage.received hints final) = hints := by
  simp [hintsAmong, HintsStage.received]

/-- The session of the keystroke, started again after an hour. -/
theorem restart_shows_keystroke :
    ∃ s db, (pipeline namedConfig).exec (pipeline namedConfig).start restSchedule = some s ∧
      (Database.machine Writer.blankSerde .sqlite).Reachable db ∧ db.given = (s .storage).current.stored ∧
      (SnapshotStage.new (.new (some "run-1")) 60 (Backend.sqlite.fetchRecordsSince toRfc3339
        ([] ++ db.records) 0 (some "run-1")) [] (minutes 60)).bus.snapshot.records =
        (SnapshotStage.retained (minutes 60) (recordsOf (s .hints).sent) (minutes 60)).map reread := by
  obtain ⟨s, hs⟩ := Option.isSome_iff_exists.mp (show ((pipeline namedConfig).exec
    (pipeline namedConfig).start restSchedule).isSome = true by decide)
  have hcheck : (((pipeline namedConfig).exec (pipeline namedConfig).start restSchedule).map fun s =>
      ([Stage.spawner, .ingest, .envelope, .hints, .compression, .snapshot, .storage].all
          fun n => (s n).ended,
        (s .storage).current.stored.all fun command => !Database.isShutdown command,
        (s .hints).inputs.getLast?.map (·.1),
        decide (((RecordBuilder.withNextRecordId .inactive 0).sessionReadings
          (hintsAmong (s .hints).inputs) 2).Pairwise (· ≤ ·)),
        (recordsOf (s .hints).sent).all fun record => decide (record.recordId < 2 ^ 64) &&
          decide (InYears record.startTime) && record.endTime.all fun ended => decide (InYears ended))) =
        some (true, true, some ⟨2, 2⟩, true, true) := by decide
  rw [hs] at hcheck
  simp only [Option.map_some, Option.some.injEq, Prod.mk.injEq, List.all_eq_true, Bool.not_eq_true',
    decide_eq_true_eq, Bool.and_eq_true, Option.all_eq_true] at hcheck
  obtain ⟨hends, hstored, hfinal, hreadings, hrecords⟩ := hcheck
  have hended : ∀ n, (s n).ended = true := fun n => hends n (by cases n <;> decide)
  obtain ⟨db, hdb, hgiven, hfinished, hok⟩ := Database.exists_written Writer.blankSerde .sqlite hstored
  refine ⟨s, db, hs, hdb, hgiven, (restart_shows_session namedConfig rfl (.exec .start hs) hended ?_
    (fun record hrecord => (hrecords record hrecord).1.1)
    (fun record hrecord => ⟨(hrecords record hrecord).1.2, fun ended => (hrecords record hrecord).2 ended⟩)
    hdb hgiven hfinished hok (fun _ h => absurd h List.not_mem_nil) 60
    (show InYears (minutes 60 - minutes 60) by decide) le_rfl (.new (some "run-1")) []).1⟩
  intro hints final hinputs
  rw [hinputs, hintsAmong_received] at hreadings
  rw [hinputs, HintsStage.received, List.getLast?_concat] at hfinal
  obtain rfl := Option.some.inj hfinal
  exact hreadings

end Kronical
