import Kronical.Pipeline.Envelope

/-!
# What the envelope stage sends

`expand` is what the stage does to the envelopes alone: each signal is followed by the state hint it
causes. `collect` is what it does for each envelope of the expanded list: forward it, note it in the
pending update, and let the update go once it holds a transition. The loop of the stage is the two of
them (`handleEnvelope_eq`), so everything it sends can be read off the expanded list, the `trace` of
the stage: the hints and the signals are forwarded as they are, and the updates carry the reported
transitions one each.
-/

namespace Kronical

/-- An envelope and the signal it answers, if any. -/
abbrev Traced := EventEnvelope × Option SignalKind

/-- The envelope itself and, behind a signal, the state hint that it causes. -/
def expand : Transducer StateDeriver EventEnvelope Traced := fun deriver env =>
  match env.kind with
  | .hint _ => (deriver, [(env, none)])
  | .signal kind =>
    ((deriver.onSignal env).1,
      (env, some kind) :: (deriver.onSignal env).2.toList.map fun hint => (hint, some kind))

/-- The transition a traced envelope reports. -/
def transitionOf (x : Traced) : Option Transition := reported x.1 x.2

/-- The envelope counted. -/
def SnapshotUpdate.count (update : SnapshotUpdate) (env : EventEnvelope) : SnapshotUpdate :=
  if env.isHint then { update with hintsDelta := update.hintsDelta + 1 }
  else { update with signalsDelta := update.signalsDelta + 1 }

/-- The envelope counted and its payload noted. -/
def note (update : SnapshotUpdate) (x : Traced) : SnapshotUpdate :=
  applyStateUpdateHint (applyFocusUpdate (update.count x.1) x.1) x.1 x.2

/-- Where an envelope is forwarded to. -/
def forwarded (env : EventEnvelope) : Packet :=
  if env.isHint then ⟨.hints, env⟩ else ⟨.storage, .envelope env⟩

/-- Forward, note and, with a transition, flush. -/
def collect : Transducer SnapshotUpdate Traced Packet := fun update x =>
  ((flushTransition (note update x)).1, forwarded x.1 :: (flushTransition (note update x)).2)

theorem flushTransition_dest (update : SnapshotUpdate) :
    ∀ packet ∈ (flushTransition update).2, packet.1 = .snapshot := by
  intro packet hmem
  unfold flushTransition flushSnapshotUpdate at hmem
  split_ifs at hmem
  · cases hmem
  · rw [List.mem_singleton.mp hmem]
  · cases hmem

theorem forwarded_dest (env : EventEnvelope) :
    (forwarded env).1 = .hints ∨ (forwarded env).1 = .storage := by
  unfold forwarded
  split_ifs
  · exact .inl rfl
  · exact .inr rfl

theorem collect_dest (update : SnapshotUpdate) (xs : List Traced) :
    ∀ packet ∈ (collect.run update xs).2,
      packet.1 = .hints ∨ packet.1 = .storage ∨ packet.1 = .snapshot := by
  intro packet hmem
  obtain ⟨u, x, -, hpacket⟩ := Transducer.mem_run hmem
  rcases List.mem_cons.mp hpacket with rfl | hflush
  · exact (forwarded_dest x.1).imp_right .inl
  · exact .inr (.inr (flushTransition_dest _ packet hflush))

theorem onSignal_isHint {deriver : StateDeriver} {env hint : EventEnvelope}
    (h : (deriver.onSignal env).2 = some hint) : hint.isHint = true := by
  obtain ⟨tr, -, rfl⟩ := Option.map_eq_some_iff.mp h
  rfl

theorem forwardHint_eq (update : SnapshotUpdate) {hint : EventEnvelope} (kind : Option SignalKind)
    (h : hint.isHint = true) : forwardHint update hint kind = collect update (hint, kind) := by
  simp only [forwardHint, collect, note, SnapshotUpdate.count, forwarded, h, if_true]

theorem forwardSignal_eq {update : SnapshotUpdate} {env : EventEnvelope} {kind : SignalKind}
    (h : env.isHint = false) : forwardSignal update env kind = collect update (env, some kind) := by
  simp only [forwardSignal, applyStateUpdateSignal, collect, note, SnapshotUpdate.count, forwarded, h,
    Bool.false_eq_true, if_false]

/-- The loop of the stage expands the envelopes and collects the expanded list. -/
theorem handleEnvelope_eq : handleEnvelope = expand.comp collect := by
  funext s env
  unfold handleEnvelope
  split
  · rename_i kind hkind
    have hhint : env.isHint = true := by simp [EventEnvelope.isHint, hkind]
    rw [forwardHint_eq _ _ hhint]
    simp [Transducer.comp, expand, hkind, Transducer.run_cons]
  · rename_i kind hkind
    have hhint : env.isHint = false := by simp [EventEnvelope.isHint, hkind]
    rw [forwardSignal_eq hhint]
    cases hanswer : (s.1.onSignal env).2 with
    | none => simp [Transducer.comp, expand, hkind, Transducer.run_cons, hanswer]
    | some hint =>
      have hcollect := fun update => forwardHint_eq update (some kind) (onSignal_isHint hanswer)
      simp [Transducer.comp, expand, hkind, Transducer.run_cons, hanswer, hcollect]

/-! ### The trace of the stage -/

namespace EnvelopeStage

/-- The expanded envelopes of one command; the stage moves on as in `handle`. -/
def trace : Transducer EnvelopeStage (Option DeriveCommand) Traced
  | self, some (.batch batch) =>
    if batch.isEmpty then
      (self, [])
    else
      let observed := self.envelopesOf batch
      let expanded := expand.run self.stateDeriver observed.2
      ({ observed.1 with stateDeriver := expanded.1 }, expanded.2)
  | self, some (.tick now) =>
    ({ self with stateDeriver := (self.stateDeriver.onTick now).1 },
      (self.stateDeriver.onTick now).2.toList.map fun hint => (hint, none))
  | self, some .shutdown => ({ self with stopped := true }, [])
  | self, none => ({ self with stopped := true }, [])

/-- What `handle` sends behind the forwarded envelopes of a command. -/
def closing (self : EnvelopeStage) : Option DeriveCommand → List Packet
  | some (.batch batch) =>
    if batch.isEmpty then []
    else
      ⟨.compression, .process batch (self.envelopesOf batch).2⟩ ::
        closeUpdate (collect.run .default (self.trace (some (.batch batch))).2).1
  | some (.tick now) =>
    if (self.trace (some (.tick now))).2.isEmpty then []
    else closeUpdate (collect.run .default (self.trace (some (.tick now))).2).1
  | some .shutdown => [⟨.snapshot, .shutdown⟩, ⟨.compression, .shutdown⟩]
  | none => []

theorem onTick_isHint {deriver : StateDeriver} {now : DateTime} {hint : EventEnvelope}
    (h : (deriver.onTick now).2 = some hint) : hint.isHint = true := by
  obtain ⟨tr, -, rfl⟩ := Option.map_eq_some_iff.mp h
  rfl

theorem handle_eq (self : EnvelopeStage) (cmd : Option DeriveCommand) :
    self.handle cmd =
      ((self.trace cmd).1,
        (collect.run .default (self.trace cmd).2).2 ++ self.closing cmd) := by
  match cmd with
  | some (.batch batch) =>
    simp only [handle, handleBatch, trace, closing]
    by_cases hempty : batch.isEmpty
    · simp only [hempty, if_true, Transducer.run_nil, List.append_nil]
    · simp only [hempty, Bool.false_eq_true, if_false, handleEnvelope_eq, Transducer.run_comp]
  | some (.tick now) =>
    rcases hanswer : self.stateDeriver.onTick now with ⟨deriver, _ | hint⟩
    · simp [handle, handleTick, trace, closing, hanswer]
    · have hhint : hint.isHint = true := onTick_isHint (by rw [hanswer])
      simp [handle, handleTick, trace, closing, hanswer, forwardHint_eq _ _ hhint, Transducer.run_cons]
  | some .shutdown => rfl
  | none => rfl

theorem closeUpdate_dest (update : SnapshotUpdate) :
    ∀ packet ∈ closeUpdate update, packet.1 = .snapshot := by
  intro packet hmem
  unfold closeUpdate at hmem
  split_ifs at hmem <;> simp at hmem
  · rw [hmem]
  · rcases hmem with rfl | rfl <;> rfl

theorem closing_dest (self : EnvelopeStage) (cmd : Option DeriveCommand) :
    ∀ packet ∈ self.closing cmd, packet.1 = .snapshot ∨ packet.1 = .compression := by
  intro packet hmem
  unfold closing at hmem
  split at hmem
  · split_ifs at hmem
    · cases hmem
    · rcases List.mem_cons.mp hmem with rfl | hclose
      · exact .inr rfl
      · exact .inl (closeUpdate_dest _ packet hclose)
  · split_ifs at hmem
    · cases hmem
    · exact .inl (closeUpdate_dest _ packet hmem)
  · rcases List.mem_cons.mp hmem with rfl | hmem
    · exact .inl rfl
    · rw [List.mem_singleton.mp hmem]
      exact .inr rfl
  · cases hmem

/-- What a command makes the stage send to the compression stage: a batch with its envelopes, unless it
is empty, and the shutdown. -/
def toCompression (self : EnvelopeStage) : Option DeriveCommand → List CompressionCommand
  | some (.batch batch) =>
    if batch.isEmpty then [] else [.process batch (self.envelopesOf batch).2]
  | some .shutdown => [.shutdown]
  | some (.tick _) | none => []

theorem handle_compression (self : EnvelopeStage) (cmd : Option DeriveCommand) :
    sentTo .compression (self.handle cmd).2 = self.toCompression cmd := by
  have hcollect : ∀ xs, sentTo .compression (collect.run .default xs).2 = [] := by
    intro xs
    refine sentTo_eq_nil fun packet hmem => ?_
    rcases collect_dest .default xs packet hmem with h | h | h <;> rw [h] <;> decide
  have hclose : ∀ update, sentTo .compression (closeUpdate update) = [] := by
    intro update
    refine sentTo_eq_nil fun packet hmem => ?_
    rw [closeUpdate_dest update packet hmem]
    decide
  rw [handle_eq, sentTo_append, hcollect, List.nil_append]
  match cmd with
  | some (.batch batch) =>
    rw [closing, toCompression]
    by_cases hempty : batch.isEmpty
    · rw [if_pos hempty, if_pos hempty]
      rfl
    · rw [if_neg hempty, if_neg hempty, sentTo_cons_self, hclose]
  | some (.tick now) =>
    rw [closing]
    split_ifs
    · rfl
    · exact hclose _
  | some .shutdown => rfl
  | none => rfl

end EnvelopeStage

end Kronical
