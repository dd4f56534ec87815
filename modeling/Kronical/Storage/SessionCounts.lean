import Kronical.Storage.SessionRows

/-!
# The counters of a session

The envelope stage counts every envelope of its trace in one of the two deltas of the pending update, and
an update that is dropped has counted none; so the deltas sent over all commands sum to the signals and
the hints of the trace (`EnvelopeStage.loop_tally`). The snapshot stage adds them up, and the storage stores
the same envelopes. What the status of a finished session says about its events is therefore what the
tables of a new database hold (`session_counts`).
-/

namespace Kronical

open Network

/-! ### The deltas of the updates -/

/-- One of the deltas of an update, and the envelopes that it counts. -/
structure Tally where
  delta : SnapshotUpdate → Nat
  counts : EventEnvelope → Bool
  delta_default : delta .default = 0
  delta_of_isEmpty : ∀ update, update.isEmpty = true → delta update = 0
  delta_note : ∀ update x, delta (note update x) = delta update + if counts x.1 then 1 else 0

namespace Tally

theorem note_deltas (update : SnapshotUpdate) (x : Traced) :
    (note update x).signalsDelta = (update.count x.1).signalsDelta ∧
      (note update x).hintsDelta = (update.count x.1).hintsDelta := by
  unfold note applyStateUpdateHint applyFocusUpdate
  split <;> split <;> exact ⟨rfl, rfl⟩

theorem deltas_of_isEmpty {update : SnapshotUpdate} (h : update.isEmpty = true) :
    update.signalsDelta = 0 ∧ update.hintsDelta = 0 := by
  simp only [SnapshotUpdate.isEmpty, Bool.and_eq_true, beq_iff_eq] at h
  omega

theorem signalsDelta_note (update : SnapshotUpdate) (x : Traced) :
    (note update x).signalsDelta = update.signalsDelta + if !x.1.isHint then 1 else 0 := by
  rw [(note_deltas update x).1, SnapshotUpdate.count]
  by_cases hhint : x.1.isHint = true <;> simp [hhint]

theorem hintsDelta_note (update : SnapshotUpdate) (x : Traced) :
    (note update x).hintsDelta = update.hintsDelta + if x.1.isHint then 1 else 0 := by
  rw [(note_deltas update x).2, SnapshotUpdate.count]
  by_cases hhint : x.1.isHint = true <;> simp [hhint]

def signals : Tally where
  delta := SnapshotUpdate.signalsDelta
  counts env := !env.isHint
  delta_default := rfl
  delta_of_isEmpty _ h := (deltas_of_isEmpty h).1
  delta_note := signalsDelta_note

def hints : Tally where
  delta := SnapshotUpdate.hintsDelta
  counts := EventEnvelope.isHint
  delta_default := rfl
  delta_of_isEmpty _ h := (deltas_of_isEmpty h).2
  delta_note := hintsDelta_note

variable (tally : Tally)

/-- What the updates of the packets have counted. -/
def sent (packets : List Packet) : Nat := ((updatesOf packets).map tally.delta).sum

@[simp] theorem sent_nil : tally.sent [] = 0 := rfl

@[simp] theorem sent_append (packets packets' : List Packet) :
    tally.sent (packets ++ packets') = tally.sent packets + tally.sent packets' := by
  simp [sent]

theorem sent_forwarded (env : EventEnvelope) (packets : List Packet) :
    tally.sent (forwarded env :: packets) = tally.sent packets := by
  rw [sent, updatesOf_forwarded, sent]

theorem sent_update (update : SnapshotUpdate) :
    tally.sent [⟨.snapshot, .update update⟩] = tally.delta update :=
  Nat.add_zero _

theorem flushTransition_total (update : SnapshotUpdate) :
    tally.sent (flushTransition update).2 + tally.delta (flushTransition update).1 = tally.delta update := by
  unfold flushTransition flushSnapshotUpdate
  split_ifs
  · simp
  · simp [sent_update, tally.delta_default]
  · simp

theorem collect_total (update : SnapshotUpdate) (xs : List Traced) :
    tally.sent (collect.run update xs).2 + tally.delta (collect.run update xs).1 =
      tally.delta update + (xs.map Prod.fst).countP tally.counts := by
  induction xs generalizing update with
  | nil => simp
  | cons x xs ih =>
    have hrest := ih (collect update x).1
    have hflush := tally.flushTransition_total (note update x)
    have hnote := tally.delta_note update x
    have hstep : tally.sent (collect update x).2 = tally.sent (flushTransition (note update x)).2 :=
      tally.sent_forwarded x.1 _
    have hpending : (collect update x).1 = (flushTransition (note update x)).1 := rfl
    rw [hpending] at hrest
    rw [Transducer.run_cons_fst, Transducer.run_cons_snd, sent_append, hstep, hpending, List.map_cons,
      List.countP_cons]
    omega

theorem closeUpdate_total (update : SnapshotUpdate) :
    tally.sent (EnvelopeStage.closeUpdate update) = tally.delta update := by
  have hpublish : tally.sent [⟨.snapshot, .publish⟩] = 0 := rfl
  rw [EnvelopeStage.closeUpdate, sent_append, hpublish, Nat.add_zero]
  split_ifs with hempty
  · rw [sent_nil, tally.delta_of_isEmpty update hempty]
  · exact tally.sent_update update

end Tally

namespace EnvelopeStage

theorem handle_tally (tally : Tally) (self : EnvelopeStage) (cmd : Option DeriveCommand) :
    tally.sent (self.handle cmd).2 = ((self.trace cmd).2.map Prod.fst).countP tally.counts := by
  have hcollect := tally.collect_total .default (self.trace cmd).2
  rw [tally.delta_default, Nat.zero_add] at hcollect
  rw [handle_eq, Tally.sent_append, ← hcollect]
  refine congrArg _ ?_
  match cmd with
  | some (.batch batch) =>
    rw [closing]
    by_cases hempty : batch.isEmpty
    · simp [trace, hempty, tally.delta_default]
    · rw [if_neg hempty, ← tally.closeUpdate_total]
      rfl
  | some (.tick now) =>
    rw [closing]
    by_cases hempty : (self.trace (some (.tick now))).2.isEmpty
    · simp [List.isEmpty_iff.mp hempty, tally.delta_default]
    · rw [if_neg hempty, tally.closeUpdate_total]
  | some .shutdown => exact tally.delta_default.symm
  | none => exact tally.delta_default.symm

/-- Over any commands, the updates count the envelopes of the trace. -/
theorem loop_tally (tally : Tally) (self : EnvelopeStage) (cmds : List (Option DeriveCommand)) :
    tally.sent (loop.run self cmds).2 = ((trace.run self cmds).2.map Prod.fst).countP tally.counts := by
  induction cmds generalizing self with
  | nil => rfl
  | cons cmd cmds ih =>
    have hnext : (self.loop cmd).1 = (self.trace cmd).1 := congrArg Prod.fst (self.handle_eq cmd)
    have hcmd : tally.sent (self.loop cmd).2 = _ := self.handle_tally tally cmd
    rw [Transducer.run_cons_snd, Transducer.run_cons_snd, Tally.sent_append, hcmd, ih, hnext, List.map_append,
      List.countP_append]

end EnvelopeStage

/-! ### The rows -/

/-- The kind of the row is that of a hint. -/
def EnvelopeRow.isHint {Time Flag : Type} (self : EnvelopeRow Time Flag) : Bool :=
  "hint:".toList.isPrefixOf self.kind.toList

theorem isHint_envelopeRow (serde : PayloadSerde) (env : EventEnvelope) :
    (envelopeRow serde env).isHint = env.isHint := by
  show "hint:".toList.isPrefixOf (kindLabel env.kind).toList = _
  cases hkind : env.kind with
  | signal kind => cases kind <;> simp only [EventEnvelope.isHint, hkind] <;> decide
  | hint kind => cases kind <;> simp only [EventEnvelope.isHint, hkind] <;> decide

theorem countP_rows (serde : PayloadSerde) (tally : Tally) {p : EnvelopeRow DateTime Bool → Bool}
    (hp : ∀ env, p (envelopeRow serde env) = tally.counts env) (envs : List EventEnvelope) :
    (envs.map (envelopeRow serde)).countP p = envs.countP tally.counts := by
  rw [List.countP_map]
  exact List.countP_congr fun env _ => by rw [Function.comp_apply, hp]

/-- When the threads of the pipeline have ended, and the storage has written what it was handed and is
dropped, without a failure: the counters last published are the numbers of the signals, the hints and the
records in the tables of a new database, as far as a counter goes. -/
theorem session_counts (cfg : PipelineConfig) {serde : PayloadSerde}
    {s : Network.Config Stage.Msg Stage.Reading Stage.Local} (hs : (pipeline cfg).Reachable s)
    (hended : ∀ n, (s n).ended = true) {backend : Backend} {db : Database}
    (hdb : (Database.machine serde backend).Reachable db)
    (hgiven : db.given = (s .storage).current.stored) (hfinished : db.finished = true)
    (hok : db.WithoutFailure serde) :
    (s .snapshot).current.bus.snapshot.counts =
      { signalsSeen := satAdd 0 ((db.visible.filterMap Row.rawEnvelope).countP fun row => !row.isHint)
        hintsSeen := satAdd 0 ((db.visible.filterMap Row.rawEnvelope).countP fun row => row.isHint)
        recordsEmitted := satAdd 0 (db.visible.filterMap Row.activityRecord).length } := by
  obtain ⟨before, after, harrived, hstored⟩ := shutdown_received hs hended
  obtain ⟨-, hlost⟩ := nothing_lost hs harrived
  have hvisible : db.visible = (before.map Prod.snd).flatMap (StorageCommand.rows serde) := by
    rw [(Database.all_visible hdb hok) hfinished, hgiven, hstored]
  have henvelope := envelope_run hs
  rw [hlost.silent.1, List.append_nil] at henvelope
  have htally : ∀ tally : Tally, ((updatesOf (s .envelope).sent).map tally.delta).sum =
      ((before.map Prod.snd).filterMap asEnvelope).countP tally.counts := by
    intro tally
    have hloop := EnvelopeStage.loop_tally tally
      (.new cfg.envelopeStarted cfg.activeGraceSecs cfg.idleThresholdSecs)
      ((s .envelope).inputs.map Prod.snd)
    rw [show EnvelopeStage.loop.run _ _ = _ from henvelope] at hloop
    exact hloop.trans ((stored_envelopes hs harrived hlost).countP_eq _).symm
  have hrows := fun tally p hp => countP_rows serde tally (p := p) hp
    ((before.map Prod.snd).filterMap asEnvelope)
  rw [hvisible, activityRecord_rows, rawEnvelope_rows, hlost.counts, List.length_map,
    hrows .signals _ fun env => by rw [isHint_envelopeRow]; rfl,
    hrows .hints _ fun env => isHint_envelopeRow serde env, ← htally .signals, ← htally .hints]
  rfl

/-- The keystroke is one signal row, and the change of the state it causes one hint row. -/
theorem session_counts_sample :
    ∃ s db, (pipeline plainConfig).exec (pipeline plainConfig).start restSchedule = some s ∧
      (Database.machine Writer.blankSerde .sqlite).Reachable db ∧ db.given = (s .storage).current.stored ∧
      (s .snapshot).current.bus.snapshot.counts = ⟨1, 1, 1⟩ ∧
      (s .snapshot).current.bus.snapshot.counts =
        { signalsSeen := satAdd 0 ((db.visible.filterMap Row.rawEnvelope).countP fun row => !row.isHint)
          hintsSeen := satAdd 0 ((db.visible.filterMap Row.rawEnvelope).countP fun row => row.isHint)
          recordsEmitted := satAdd 0 (db.visible.filterMap Row.activityRecord).length } := by
  obtain ⟨s, db, hs, hended, hdb, hgiven, hfinished, hok⟩ := exists_restSession
  have hcounts : (((pipeline plainConfig).exec (pipeline plainConfig).start restSchedule).map
      fun s => (s .snapshot).current.bus.snapshot.counts) = some ⟨1, 1, 1⟩ := by decide
  rw [hs] at hcounts
  exact ⟨s, db, hs, hdb, hgiven, Option.some.inj hcounts,
    session_counts plainConfig (.exec .start hs) hended hdb hgiven hfinished hok⟩

end Kronical
