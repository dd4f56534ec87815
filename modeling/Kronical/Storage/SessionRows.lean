import Mathlib.Data.List.Perm.Basic
import Kronical.Pipeline.Restart
import Kronical.Storage.Database

/-!
# What a session leaves in the database

The pipeline hands its commands to the storage, and when its threads have ended the storage is dropped.
Then the tables of a new database hold what was derived: the records are those that the record builder closed, the
transitions those that the state engine returned, and the envelopes those of the trace of the envelope
stage, every one of them once (`session_rows`).
-/

namespace Kronical

open Network

/-! ### Rows by table -/

def recordRow (r : ActivityRecord) : RecordRow :=
  { recordId := asI64 r.recordId, startTime := r.startTime, endTime := r.endTime,
    state := r.state.debug, focusInfo := r.focusInfo, runId := r.runId }

def transitionRow (t : Transition) : TransitionRow :=
  { atTime := t.atTime, fromState := t.fromState.debug, toState := t.toState.debug,
    bySignal := t.bySignal, runId := t.runId }

/-- The row, if it is one of `activity_records`. -/
def Row.activityRecord : Row → Option RecordRow
  | .record row => some row
  | _ => none

/-- The row, if it is one of `recent_transitions`. -/
def Row.recentTransition : Row → Option TransitionRow
  | .transition row => some row
  | _ => none

/-- The row, if it is one of `raw_envelopes`. -/
def Row.rawEnvelope : Row → Option (EnvelopeRow DateTime Bool)
  | .envelope row => some row
  | _ => none

/-- The envelope a storage command stores. -/
def asEnvelope : StorageCommand → Option EventEnvelope
  | .envelope env => some env
  | _ => none

variable {serde : PayloadSerde}

theorem filterMap_rows {α β : Type} {table : Row → Option β} {value : StorageCommand → Option α}
    {row : α → β}
    (h : ∀ command : StorageCommand,
      (command.rows serde).filterMap table = ((value command).map row).toList)
    (commands : List StorageCommand) :
    (commands.flatMap (StorageCommand.rows serde)).filterMap table =
      (commands.filterMap value).map row := by
  induction commands with
  | nil => rfl
  | cons command commands ih =>
    rw [List.flatMap_cons, List.filterMap_append, h, ih, List.filterMap_cons]
    cases value command <;> rfl

theorem filterMap_compactEvents {β : Type} {table : Row → Option β}
    (h : ∀ row, table (.compactEvent row) = none) (events : List CompactEvent) :
    ((StorageCommand.compactEvents events).rows serde).filterMap table = [] := by
  rw [StorageCommand.rows, List.filterMap_map, List.filterMap_eq_nil_iff]
  exact fun event _ => h _

theorem activityRecord_rows (commands : List StorageCommand) :
    (commands.flatMap (StorageCommand.rows serde)).filterMap Row.activityRecord =
      (commands.filterMap asRecord).map recordRow := by
  refine filterMap_rows (fun command => ?_) commands
  cases command with
  | compactEvents events => exact filterMap_compactEvents (fun _ => rfl) events
  | rawEvent | record | envelope | transition | shutdown => rfl

theorem recentTransition_rows (commands : List StorageCommand) :
    (commands.flatMap (StorageCommand.rows serde)).filterMap Row.recentTransition =
      (commands.filterMap asTransition).map transitionRow := by
  refine filterMap_rows (fun command => ?_) commands
  cases command with
  | compactEvents events => exact filterMap_compactEvents (fun _ => rfl) events
  | rawEvent | record | envelope | transition | shutdown => rfl

theorem rawEnvelope_rows (commands : List StorageCommand) :
    (commands.flatMap (StorageCommand.rows serde)).filterMap Row.rawEnvelope =
      (commands.filterMap asEnvelope).map (envelopeRow serde) := by
  refine filterMap_rows (fun command => ?_) commands
  cases command with
  | compactEvents events => exact filterMap_compactEvents (fun _ => rfl) events
  | rawEvent | record | envelope | transition | shutdown => rfl

/-! ### The envelopes -/

/-- The traced envelope, if it is a signal. -/
def signalOf (x : Traced) : Option EventEnvelope := if x.1.isHint then none else some x.1

theorem flushTransition_storage (update : SnapshotUpdate) :
    sentTo .storage (flushTransition update).2 = [] := by
  unfold flushTransition flushSnapshotUpdate
  split_ifs <;> rfl

theorem collect_storage (update : SnapshotUpdate) (xs : List Traced) :
    (sentTo .storage (collect.run update xs).2).filterMap asEnvelope = xs.filterMap signalOf := by
  induction xs generalizing update with
  | nil => rfl
  | cons x xs ih =>
    have hstep : (sentTo .storage (collect update x).2).filterMap asEnvelope = (signalOf x).toList := by
      rw [collect, ← List.singleton_append, sentTo_append, flushTransition_storage, List.append_nil,
        forwarded, signalOf]
      split_ifs <;> rfl
    rw [Transducer.run_cons_snd, sentTo_append, List.filterMap_append, hstep, ih, List.filterMap_cons]
    cases signalOf x <;> rfl

theorem EnvelopeStage.loop_storage (self : EnvelopeStage) (cmds : List (Option DeriveCommand)) :
    (sentTo .storage (loop.run self cmds).2).filterMap asEnvelope =
      (trace.run self cmds).2.filterMap signalOf := by
  induction cmds generalizing self with
  | nil => rfl
  | cons cmd cmds ih =>
    have hnext : (self.loop cmd).1 = (self.trace cmd).1 := congrArg Prod.fst (self.handle_eq cmd)
    have hclosing : sentTo .storage (self.closing cmd) = [] := by
      refine sentTo_eq_nil fun packet hmem => ?_
      rcases self.closing_dest cmd packet hmem with h | h <;> rw [h] <;> decide
    have hcmd : (sentTo .storage (self.loop cmd).2).filterMap asEnvelope =
        (self.trace cmd).2.filterMap signalOf := by
      show (sentTo .storage (self.handle cmd).2).filterMap asEnvelope = _
      rw [handle_eq, sentTo_append, hclosing, List.append_nil, collect_storage]
    rw [Transducer.run_cons, Transducer.run_cons, sentTo_append, List.filterMap_append,
      List.filterMap_append, hcmd, hnext, ih]

theorem HintsStage.loop_storage (self : HintsStage)
    (inputs : List (RecordBuilder.HintClock × Option EventEnvelope)) :
    (sentTo .storage (loop.run self inputs).2).filterMap asEnvelope = inputs.filterMap Prod.snd := by
  have hrecords : ∀ (stage : HintsStage) (records : List ActivityRecord),
      (sentTo .storage (records.flatMap stage.emitRecord)).filterMap asEnvelope = [] := by
    intro stage records
    induction records with
    | nil => rfl
    | cons record records ih =>
      rw [List.flatMap_cons, sentTo_append, List.filterMap_append, ih]
      rfl
  induction inputs generalizing self with
  | nil => rfl
  | cons input inputs ih =>
    have hstep : (sentTo .storage (self.loop input).2).filterMap asEnvelope = input.2.toList := by
      obtain ⟨clock, _ | env⟩ := input
      · show (sentTo .storage (_ ++ [_])).filterMap asEnvelope = []
        rw [sentTo_append, List.filterMap_append, hrecords]
        rfl
      · show (sentTo .storage (_ :: _)).filterMap asEnvelope = [env]
        rw [sentTo_cons_self, List.filterMap_cons, hrecords]
        rfl
    rw [Transducer.run_cons_snd, sentTo_append, List.filterMap_append, hstep, ih, List.filterMap_cons]
    obtain ⟨clock, _ | env⟩ := input <;> rfl

theorem perm_trace (xs : List Traced) :
    (xs.filterMap signalOf ++ xs.filterMap hintOf).Perm (xs.map Prod.fst) := by
  induction xs with
  | nil => exact .nil
  | cons x xs ih =>
    by_cases hhint : x.1.isHint = true
    · have hsignal : signalOf x = none := if_pos hhint
      have hthis : hintOf x = some x.1 := if_pos hhint
      rw [List.filterMap_cons_none hsignal, List.filterMap_cons_some hthis]
      exact List.perm_middle.trans (ih.cons x.1)
    · have hsignal : signalOf x = some x.1 := if_neg hhint
      have hthis : hintOf x = none := if_neg hhint
      rw [List.filterMap_cons_some hsignal, List.filterMap_cons_none hthis]
      exact ih.cons x.1

/-! ### The session -/

variable {cfg : PipelineConfig}
  {ok : Network.Config Stage.Msg Stage.Reading Stage.Local → Network.Action Stage.Reading → Prop}
  {s : Network.Config Stage.Msg Stage.Reading Stage.Local}

/-- Which stage hands over what. -/
inductive HandsOver : Stage → StorageCommand → Prop
  | signal (env) : HandsOver .envelope (.envelope env)
  | hint (env) : HandsOver .hints (.envelope env)
  | record (record) : HandsOver .hints (.record record)
  | rawEvent (event) : HandsOver .compression (.rawEvent event)
  | compactEvents (events) : HandsOver .compression (.compactEvents events)
  | transition (transition) : HandsOver .snapshot (.transition transition)
  | shutdown : HandsOver .snapshot .shutdown

theorem storage_handsOver (hs : (pipeline cfg).Reach ok s) {msg : Stage × StorageCommand}
    (hmem : msg ∈ (s .storage).arrived) : HandsOver msg.1 msg.2 := by
  obtain ⟨p, cmd⟩ := msg
  obtain ⟨state, reading, input, hout⟩ := hs.arrived_answers hmem
  have hfrom : p ∈ [Stage.hints, .compression, .snapshot, .envelope] := heard_from hs hmem
  simp only [List.mem_cons, List.not_mem_nil, or_false] at hfrom
  rcases hfrom with rfl | rfl | rfl | rfl
  · rcases HintsStage.handle_sends state reading input with ⟨hsends, -⟩ | ⟨front, hends, hsends, -⟩
    · cases hsends _ hout with
      | envelope env => exact .hint env
      | stored record => exact .record record
    · change _ ∈ (HintsStage.handle state reading input).2 at hout
      rw [hends] at hout
      rcases List.mem_append.mp hout with hout | hout
      · cases hsends _ hout with
        | envelope env => exact .hint env
        | stored record => exact .record record
      · simp at hout
  · cases CompressionStage.handle_sends state input _ hout with
    | rawEvent event => exact .rawEvent event
    | compactEvents events => exact .compactEvents events
  · change _ ∈ (SnapshotStage.handle state reading input).2 at hout
    rcases SnapshotStage.handle_sends state reading input with ⟨transition?, hends⟩ | ⟨hends, -⟩
    · rw [hends] at hout
      obtain ⟨transition, -, heq⟩ := List.mem_map.mp hout
      cases heq
      exact .transition transition
    · rw [hends] at hout
      cases List.mem_singleton.mp hout
      exact .shutdown
  · rcases EnvelopeStage.handle_sends state input with hsends | ⟨hends, -⟩
    · cases hsends _ hout with
      | signal env => exact .signal env
    · change _ ∈ (EnvelopeStage.handle state input).2 at hout
      rw [hends] at hout
      simp at hout

theorem perm_only {n p q : Stage} {β : Type} {f : n.Msg → Option β} (hpq : p ≠ q)
    (msgs : List (Stage × n.Msg)) (h : ∀ msg ∈ msgs, msg.1 ≠ p → msg.1 ≠ q → f msg.2 = none) :
    ((msgs.map Prod.snd).filterMap f).Perm
      ((only p msgs).filterMap f ++ (only q msgs).filterMap f) := by
  induction msgs with
  | nil => exact .nil
  | cons msg msgs ih =>
    have hrest := ih fun other hother => h other (List.mem_cons_of_mem _ hother)
    obtain ⟨sender, command⟩ := msg
    rw [List.map_cons, only, only, List.filterMap_cons (a := (sender, command)),
      List.filterMap_cons (a := (sender, command)), ← only, ← only]
    dsimp only
    by_cases hp : sender = p
    · subst hp
      rw [if_pos rfl, if_neg hpq, List.filterMap_cons, List.filterMap_cons]
      cases f command with
      | none => exact hrest
      | some b => exact hrest.cons b
    · by_cases hq : sender = q
      · subst hq
        rw [if_neg hp, if_pos rfl, List.filterMap_cons, List.filterMap_cons]
        cases f command with
        | none => exact hrest
        | some b => exact (hrest.cons b).trans List.perm_middle.symm
      · rw [if_neg hp, if_neg hq, List.filterMap_cons, h _ List.mem_cons_self hp hq]
        exact hrest

theorem stored_moves (hs : (pipeline cfg).Reach ok s) {before after : List (Stage × StorageCommand)}
    (harrived : (s .storage).arrived = before ++ (.snapshot, .shutdown) :: after)
    (hlost : NothingLost cfg s before after) :
    let envelope := EnvelopeStage.new cfg.envelopeStarted cfg.activeGraceSecs cfg.idleThresholdSecs
    let cmds := (s .envelope).inputs.map Prod.snd
    ((before.map Prod.snd).filterMap asTransition).map (·.move) =
      (DefaultStateEngine.react.run envelope.engine (EnvelopeStage.stimuli.run envelope cmds).2).2 := by
  intro envelope cmds
  have hselect : (before.map Prod.snd).filterMap asTransition =
      transitionsOf (s .snapshot).sent := by
    have honly : (before.map Prod.snd).filterMap asTransition =
        (only .snapshot before : List (Stage.Msg .storage)).filterMap asTransition := by
      refine select_only (n := .storage) (p := .snapshot) fun msg hmsg hp => ?_
      have hhands := storage_handsOver hs (harrived ▸ List.mem_append_left _ hmsg)
      obtain ⟨p, command⟩ := msg
      cases hhands with
      | transition | shutdown => exact absurd rfl hp
      | signal | hint | record | rawEvent | compactEvents => rfl
    rw [honly, transitionsOf, ← hlost.transitions, List.filterMap_append]
    exact (List.append_nil _).symm
  have hrun := hs.run_eq .snapshot (core_unrefused hs .snapshot (.inr (.inr (.inr rfl))))
  rw [hlost.silent.2.2, List.append_nil] at hrun
  have hsent : (SnapshotStage.loop.run (.new (.new cfg.runId) cfg.retentionMinutes cfg.initialRecords
      cfg.initialTransitions cfg.snapshotStarted) (s .snapshot).inputs).2 = (s .snapshot).sent :=
    congrArg Prod.snd hrun
  have hupdates := snapshot_updates hs
    (snapshot_queue hs hlost.stopped.2.2 ▸ fun _ h => absurd h List.not_mem_nil)
  have henvelope := envelope_run hs
  rw [hlost.silent.1, List.append_nil] at henvelope
  have htransitions := (EnvelopeStage.loop_run envelope cmds).2.2.1
  rw [show EnvelopeStage.loop.run envelope cmds = _ from henvelope] at htransitions
  rw [hselect, ← hsent, (SnapshotStage.loop_transitions _ _).1, hupdates, htransitions, List.map_map]
  have hmove : (fun t : Transition => t.move) ∘ SnapshotStage.attachRunId
      (SnapshotStage.new (.new cfg.runId) cfg.retentionMinutes cfg.initialRecords
        cfg.initialTransitions cfg.snapshotStarted).bus = fun t => t.move := by
    funext t
    simp [Transition.move]
  rw [hmove]
  exact (envelope.stimuli_run cmds).2

theorem stored_envelopes (hs : (pipeline cfg).Reach ok s) {before after : List (Stage × StorageCommand)}
    (harrived : (s .storage).arrived = before ++ (.snapshot, .shutdown) :: after)
    (hlost : NothingLost cfg s before after) :
    let envelope := EnvelopeStage.new cfg.envelopeStarted cfg.activeGraceSecs cfg.idleThresholdSecs
    let cmds := (s .envelope).inputs.map Prod.snd
    ((before.map Prod.snd).filterMap asEnvelope).Perm
      ((EnvelopeStage.trace.run envelope cmds).2.map Prod.fst) := by
  intro envelope cmds
  have hperm := perm_only (n := .storage) (p := .envelope) (q := .hints) (f := asEnvelope) (by decide)
    before fun msg hmsg hp hq => by
      have hhands := storage_handsOver hs (harrived ▸ List.mem_append_left _ hmsg)
      obtain ⟨p, command⟩ := msg
      cases hhands with
      | signal => exact absurd rfl hp
      | hint | record => exact absurd rfl hq
      | transition | shutdown | rawEvent | compactEvents => rfl
  have henvelope := envelope_run hs
  rw [hlost.silent.1, List.append_nil] at henvelope
  have hsignals : (only .envelope before : List (Stage.Msg .storage)).filterMap asEnvelope =
      (EnvelopeStage.trace.run envelope cmds).2.filterMap signalOf := by
    rw [hlost.envelopes, ← EnvelopeStage.loop_storage,
      show EnvelopeStage.loop.run envelope cmds = _ from henvelope]
  have hhints : (only .hints before : List (Stage.Msg .storage)).filterMap asEnvelope =
      (EnvelopeStage.trace.run envelope cmds).2.filterMap hintOf := by
    have hrun := hs.run_eq .hints (core_unrefused hs .hints (.inr (.inr (.inl rfl))))
    rw [hlost.silent.2.1, List.append_nil] at hrun
    have hsent : (HintsStage.loop.run (.new cfg.runId cfg.nextRecordId) (s .hints).inputs).2 =
        (s .hints).sent := congrArg Prod.snd hrun
    obtain ⟨hints, final, hinputs⟩ := hints_inputs hs hlost.stopped.2.1
    have hclosed : (final, none) ∈ (s .hints).inputs := by
      rw [hinputs]
      exact List.mem_append_right _ List.mem_cons_self
    obtain ⟨⟨clock, input⟩, htaken, hinput⟩ := List.mem_map.mp hclosed
    obtain rfl : input = none := Option.map_eq_none_iff.mp (congrArg Prod.snd hinput)
    have hall := (inputs_arrived (hs.closed htaken).1).trans (hints_arrived hs)
    rw [hlost.hints, ← hsent, HintsStage.loop_storage, hall, ← (EnvelopeStage.loop_run envelope cmds).2.1,
      show EnvelopeStage.loop.run envelope cmds = _ from henvelope]
  rw [hsignals, hhints] at hperm
  exact hperm.trans (perm_trace _)

/-- When the threads of the pipeline have ended, and the storage has written what it was handed and is
dropped, without a failure: the tables of a new database hold the records that the builder closed, the
transitions that the engine returned, both in order, and each envelope of the trace. -/
theorem session_rows (cfg : PipelineConfig) {s : Network.Config Stage.Msg Stage.Reading Stage.Local}
    (hs : (pipeline cfg).Reachable s) (hended : ∀ n, (s n).ended = true) {backend : Backend}
    {db : Database} (hdb : (Database.machine serde backend).Reachable db)
    (hgiven : db.given = (s .storage).current.stored) (hfinished : db.finished = true)
    (hok : db.WithoutFailure serde) :
    let envelope := EnvelopeStage.new cfg.envelopeStarted cfg.activeGraceSecs cfg.idleThresholdSecs
    let cmds := (s .envelope).inputs.map Prod.snd
    (∃ hints final, hints.map Prod.fst = sentTo .hints (EnvelopeStage.loop.run envelope cmds).2 ∧
      db.visible.filterMap Row.activityRecord =
        ((HintsStage.new cfg.runId cfg.nextRecordId).builderRecords hints final).map
          fun record => recordRow { record with runId := cfg.runId }) ∧
      (∃ transitions : List Transition, db.visible.filterMap Row.recentTransition = transitions.map transitionRow ∧
        transitions.map (·.move) =
          (DefaultStateEngine.react.run envelope.engine
            (EnvelopeStage.stimuli.run envelope cmds).2).2) ∧
      (db.visible.filterMap Row.rawEnvelope).Perm
        ((EnvelopeStage.trace.run envelope cmds).2.map fun x => envelopeRow serde x.1) := by
  intro envelope cmds
  obtain ⟨before, after, harrived, hstored⟩ := shutdown_received hs hended
  obtain ⟨-, hlost⟩ := nothing_lost hs harrived
  have hvisible : db.visible = (before.map Prod.snd).flatMap (StorageCommand.rows serde) := by
    rw [(Database.all_visible hdb hok) hfinished, hgiven, hstored]
  rw [hvisible, activityRecord_rows, recentTransition_rows, rawEnvelope_rows]
  refine ⟨?_, ⟨_, rfl, stored_moves hs harrived hlost⟩, ?_⟩
  · obtain ⟨hints, final, hhints, hrecords⟩ := hlost.records
    have henvelope := envelope_run hs
    rw [hlost.silent.1, List.append_nil] at henvelope
    refine ⟨hints, final, ?_, ?_⟩
    · rw [hhints, show EnvelopeStage.loop.run envelope cmds = _ from henvelope]
    · rw [hrecords, List.map_map]
      rfl
  · have hperm := (stored_envelopes hs harrived hlost).map (envelopeRow serde)
    rwa [List.map_map] at hperm

/-- After the keystroke and the shutdown, all threads come to their end. -/
def restSchedule : List (Action Stage.Reading) :=
  drowsySchedule ++
    [.recv .compression (), .send .compression, .send .compression, .recv .compression (),
      .finish .compression, .recv .storage (), .recv .storage (), .recv .storage (), .recv .storage (),
      .recv .storage (), .finish .storage]

theorem exists_restSession : ∃ s db,
    (pipeline plainConfig).exec (pipeline plainConfig).start restSchedule = some s ∧
    (∀ n, (s n).ended = true) ∧ (Database.machine Writer.blankSerde .sqlite).Reachable db ∧
    db.given = (s .storage).current.stored ∧ db.finished = true ∧
    db.WithoutFailure Writer.blankSerde := by
  obtain ⟨s, hs⟩ := Option.isSome_iff_exists.mp (show ((pipeline plainConfig).exec
    (pipeline plainConfig).start restSchedule).isSome = true by decide)
  have hcheck : (((pipeline plainConfig).exec (pipeline plainConfig).start restSchedule).map fun s =>
      ([Stage.spawner, .ingest, .envelope, .hints, .compression, .snapshot, .storage].all
          fun n => (s n).ended,
        (s .storage).current.stored.all fun command => !Database.isShutdown command)) =
        some (true, true) := by decide
  rw [hs] at hcheck
  simp only [Option.map_some, Option.some.injEq, Prod.mk.injEq, List.all_eq_true, Bool.not_eq_true']
    at hcheck
  obtain ⟨db, hdb, hgiven, hfinished, hok⟩ := Database.exists_written Writer.blankSerde .sqlite hcheck.2
  exact ⟨s, db, hs, fun n => hcheck.1 n (by cases n <;> decide), hdb, hgiven, hfinished, hok⟩

/-- The envelopes of the keystroke are in the database. -/
theorem session_rows_sample :
    ∃ s db, (pipeline plainConfig).exec (pipeline plainConfig).start restSchedule = some s ∧
      (Database.machine Writer.blankSerde .sqlite).Reachable db ∧ db.given = (s .storage).current.stored ∧
      (db.visible.filterMap Row.rawEnvelope).Perm
        ((EnvelopeStage.trace.run (.new 0 0 0) ((s .envelope).inputs.map Prod.snd)).2.map
          fun x => envelopeRow Writer.blankSerde x.1) := by
  obtain ⟨s, db, hs, hended, hdb, hgiven, hfinished, hok⟩ := exists_restSession
  exact ⟨s, db, hs, hdb, hgiven,
    (session_rows plainConfig (.exec .start hs) hended hdb hgiven hfinished hok).2.2⟩

end Kronical
