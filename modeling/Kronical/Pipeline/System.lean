import Kronical.Pipeline.Downstream
import Kronical.Pipeline.Ingest
import Kronical.Pipeline.Publish
import Kronical.Pipeline.Trace

/-!
# The pipeline

The six stages and the thread that spawns them as one network. The spawning thread holds clones of
the senders of four channels until it returns; it sends nothing.
-/

namespace Kronical

/-- What the pipeline is started with: its configuration, and what it has read before. -/
structure PipelineConfig where
  runId : Option String
  nextRecordId : Nat
  activeGraceSecs : Nat
  idleThresholdSecs : Nat
  retentionMinutes : Nat
  focusInternerMaxStrings : Nat
  persistRawEvents : Bool
  initialRecords : List ActivityRecord
  initialTransitions : List Transition
  /-- The readings of the clocks while the stages start. -/
  started : Int
  envelopeStarted : DateTime
  snapshotStarted : DateTime
  deriving DecidableEq, Repr

namespace Stage

/-- What a stage reads besides the message it receives. -/
abbrev Reading : Stage → Type
  | ingest => Wake
  | hints => RecordBuilder.HintClock
  | snapshot => DateTime
  | _ => Unit

abbrev Local : Stage → Type
  | spawner => Unit
  | ingest => IngestStage
  | envelope => EnvelopeStage
  | hints => HintsStage
  | compression => CompressionStage
  | snapshot => SnapshotStage
  | storage => StorageStage

/-- The threads that hold a sender of a stage's channel. -/
def senders : Stage → List Stage
  | spawner => []
  | ingest => []
  | envelope => [ingest]
  | hints => [spawner, envelope]
  | compression => [spawner, envelope]
  | snapshot => [spawner, hints, envelope]
  | storage => [spawner, hints, compression, snapshot, envelope]

def init (cfg : PipelineConfig) : ∀ n : Stage, n.Local
  | spawner => ()
  | ingest => .new cfg.started
  | envelope => .new cfg.envelopeStarted cfg.activeGraceSecs cfg.idleThresholdSecs
  | hints => .new cfg.runId cfg.nextRecordId
  | compression => .new cfg.focusInternerMaxStrings cfg.persistRawEvents
  | snapshot => .new (.new cfg.runId) cfg.retentionMinutes cfg.initialRecords cfg.initialTransitions
      cfg.snapshotStarted
  | storage => .new

def handle : ∀ n : Stage, n.Local → n.Reading → Option n.Msg → n.Local × List Packet
  | spawner, _, _, _ => ((), [])
  | ingest, self, wake, _ => self.handle wake
  | envelope, self, _, cmd => self.handle cmd
  | hints, self, clock, env => self.handle clock env
  | compression, self, _, cmd => self.handle cmd
  | snapshot, self, now, msg => self.handle now msg
  | storage, self, _, cmd => self.handle cmd

def halted : ∀ n : Stage, n.Local → Bool
  | spawner, _ => true
  | ingest, self => self.stopped
  | envelope, self => self.stopped
  | hints, self => self.stopped
  | compression, self => self.stopped
  | snapshot, self => self.stopped
  | storage, self => self.stopped

/-- The hints stage, the snapshot stage and the storage stage go on after a failed send. -/
def refuse : ∀ n : Stage, n.Local → Packet → List Packet → n.Local × List Packet
  | ingest, self, packet, rest => self.refuse packet rest
  | envelope, self, packet, rest => self.refuse packet rest
  | compression, self, packet, rest => self.refuse packet rest
  | _, self, _, rest => (self, rest)

end Stage

/-! ### What the stages send -/

/-- What the ingest stage sends before it ends. -/
inductive IngestStage.Sends : Packet → Prop
  | batch (batch) : Sends ⟨.envelope, .batch batch⟩
  | tick (now) : Sends ⟨.envelope, .tick now⟩

/-- What the envelope stage sends before it ends. -/
inductive EnvelopeStage.Sends : Packet → Prop
  | hint (env) : Sends ⟨.hints, env⟩
  | signal (env) : Sends ⟨.storage, .envelope env⟩
  | update (update) : Sends ⟨.snapshot, .update update⟩
  | publish : Sends ⟨.snapshot, .publish⟩
  | process (batch envelopes) : Sends ⟨.compression, .process batch envelopes⟩

/-- What the hints stage sends before it ends. -/
inductive HintsStage.Sends : Packet → Prop
  | envelope (env) : Sends ⟨.storage, .envelope env⟩
  | stored (record) : Sends ⟨.storage, .record record⟩
  | emitted (record) : Sends ⟨.snapshot, .record record⟩

/-- What the compression stage sends. -/
inductive CompressionStage.Sends : Packet → Prop
  | rawEvent (event) : Sends ⟨.storage, .rawEvent event⟩
  | compactEvents (events) : Sends ⟨.storage, .compactEvents events⟩

theorem IngestStage.flush_sends (self : IngestStage) (reason : FlushReason) :
    ∀ packet ∈ (self.flush reason).map fun cmd => (⟨.envelope, cmd⟩ : Packet), Sends packet := by
  unfold flush
  split_ifs
  · simp
  · intro packet hmem
    rw [List.mem_singleton.mp hmem]
    exact .batch _

theorem IngestStage.handle_sends (self : IngestStage) (wake : Wake) :
    (∀ packet ∈ (self.handle wake).2, Sends packet) ∨
      ∃ front, (self.handle wake).2 = front ++ [⟨.envelope, .shutdown⟩] ∧
        (∀ packet ∈ front, Sends packet) ∧ (self.handle wake).1.stopped = true := by
  have htick : ∀ now, ∀ packet ∈ [(⟨.envelope, .tick now⟩ : Packet)], Sends packet := by
    intro now packet hmem
    rw [List.mem_singleton.mp hmem]
    exact .tick now
  unfold handle
  by_cases hshutdown : ∃ now spins tickNow sent, wake = .event .shutdown now spins tickNow sent
  · obtain ⟨now, spins, tickNow, sent, rfl⟩ := hshutdown
    refine .inr ⟨_, ?_, self.flush_sends .shutdown, rfl⟩
    rw [ingest, List.map_append]
    rfl
  · refine .inl ?_
    unfold ingest
    split
    · exact absurd ⟨_, _, _, _, rfl⟩ hshutdown
    · split
      · split
        · exact htick _
        · simp
      · simp
    · split_ifs
      · exact htick _
      · simp
      · intro packet hmem
        rw [List.map_append] at hmem
        rcases List.mem_append.mp hmem with hmem | hmem
        · exact self.flush_sends .timeout packet hmem
        · exact htick _ packet hmem
    · simp

theorem collect_sends (update : SnapshotUpdate) (xs : List Traced) :
    ∀ packet ∈ (collect.run update xs).2, EnvelopeStage.Sends packet := by
  intro packet hmem
  obtain ⟨u, x, -, hpacket⟩ := Transducer.mem_run hmem
  rcases List.mem_cons.mp hpacket with rfl | hflush
  · unfold forwarded
    split_ifs
    · exact .hint _
    · exact .signal _
  · unfold flushTransition flushSnapshotUpdate at hflush
    split_ifs at hflush
    · cases hflush
    · rw [List.mem_singleton.mp hflush]
      exact .update _
    · cases hflush

theorem EnvelopeStage.closeUpdate_sends (update : SnapshotUpdate) :
    ∀ packet ∈ closeUpdate update, Sends packet := by
  intro packet hmem
  unfold closeUpdate at hmem
  split_ifs at hmem
  · rw [List.mem_singleton.mp hmem]
    exact .publish
  · rcases List.mem_cons.mp hmem with rfl | hmem
    · exact .update _
    · rw [List.mem_singleton.mp hmem]
      exact .publish

theorem EnvelopeStage.handle_sends (self : EnvelopeStage) (cmd : Option DeriveCommand) :
    (∀ packet ∈ (self.handle cmd).2, Sends packet) ∨
      (self.handle cmd).2 = [⟨.snapshot, .shutdown⟩, ⟨.compression, .shutdown⟩] ∧
        (self.handle cmd).1.stopped = true := by
  by_cases hshutdown : cmd = some .shutdown
  · rw [hshutdown]
    exact .inr ⟨rfl, rfl⟩
  · refine .inl fun packet hmem => ?_
    rw [handle_eq] at hmem
    rcases List.mem_append.mp hmem with hmem | hmem
    · exact collect_sends _ _ packet hmem
    · unfold closing at hmem
      split at hmem
      · split_ifs at hmem
        · cases hmem
        · rcases List.mem_cons.mp hmem with rfl | hmem
          · exact .process _ _
          · exact closeUpdate_sends _ packet hmem
      · split_ifs at hmem
        · cases hmem
        · exact closeUpdate_sends _ packet hmem
      · exact absurd rfl hshutdown
      · cases hmem

theorem HintsStage.emitRecord_sends (self : HintsStage) (record? : Option ActivityRecord) :
    ∀ packet ∈ record?.toList.flatMap self.emitRecord, Sends packet := by
  intro packet hmem
  obtain ⟨record, -, hpacket⟩ := List.mem_flatMap.mp hmem
  rcases List.mem_cons.mp hpacket with rfl | hpacket
  · exact .stored _
  · rw [List.mem_singleton.mp hpacket]
    exact .emitted _

theorem HintsStage.handle_sends (self : HintsStage) (clock : RecordBuilder.HintClock)
    (env? : Option EventEnvelope) :
    (∀ packet ∈ (self.handle clock env?).2, Sends packet) ∧
        (self.handle clock env?).1.stopped = self.stopped ∨
      ∃ front, (self.handle clock env?).2 = front ++ [⟨.snapshot, .hintsComplete⟩] ∧
        (∀ packet ∈ front, Sends packet) ∧ (self.handle clock env?).1.stopped = true ∧
          env? = none := by
  cases env? with
  | some env =>
    refine .inl ⟨fun packet hmem => ?_, rfl⟩
    rcases List.mem_cons.mp hmem with rfl | hmem
    · exact .envelope env
    · exact self.emitRecord_sends _ packet hmem
  | none => exact .inr ⟨_, rfl, self.emitRecord_sends _, rfl, rfl⟩

theorem CompressionStage.handle_sends (self : CompressionStage) (cmd : Option CompressionCommand) :
    ∀ packet ∈ (self.handle cmd).2, Sends packet := by
  have hraw : ∀ envelopes events, ∀ packet ∈ forwardRawEvents envelopes events, Sends packet := by
    intro envelopes events packet hmem
    obtain ⟨event, -, rfl⟩ := List.mem_map.mp hmem
    exact .rawEvent event
  have hcompact : ∀ events, ∀ packet ∈ forwardCompactEvents events, Sends packet := by
    intro events packet hmem
    unfold forwardCompactEvents at hmem
    split_ifs at hmem
    · cases hmem
    · rw [List.mem_singleton.mp hmem]
      exact .compactEvents events
  intro packet hmem
  unfold handle at hmem
  split at hmem
  · split_ifs at hmem
    · cases hmem
    · rcases List.mem_append.mp hmem with hmem | hmem
      · exact hraw _ _ packet hmem
      · exact hcompact _ packet hmem
    · exact hcompact _ packet hmem
  all_goals cases hmem

theorem SnapshotStage.maybeFinalize_sends (self : SnapshotStage) (a b : Bool) (now : DateTime) :
    (self.maybeFinalize a b now).2 = [] ∨
      (self.maybeFinalize a b now).2 = [⟨.storage, .shutdown⟩] ∧
        (self.maybeFinalize a b now).1.stopped = true := by
  unfold maybeFinalize
  split_ifs
  · exact .inl rfl
  · exact .inr ⟨rfl, rfl⟩

theorem SnapshotStage.handle_sends (self : SnapshotStage) (now : DateTime)
    (msg? : Option SnapshotMessage) :
    (∃ transition? : Option Transition, (self.handle now msg?).2 =
        transition?.toList.map fun transition => ⟨.storage, .transition transition⟩) ∨
      (self.handle now msg?).2 = [⟨.storage, .shutdown⟩] ∧
        (self.handle now msg?).1.stopped = true := by
  match msg? with
  | some (.update update) =>
    refine .inl ?_
    show ∃ transition? : Option Transition, (self.applyUpdate update).2 = _
    unfold applyUpdate
    cases update.transition with
    | none => exact ⟨none, rfl⟩
    | some transition => exact ⟨some (attachRunId self.bus transition), rfl⟩
  | some (.record record) => exact .inl ⟨none, rfl⟩
  | some .publish => exact .inl ⟨none, rfl⟩
  | some .hintsComplete => exact (maybeFinalize_sends _ _ _ now).imp_left fun h => ⟨none, h⟩
  | some .shutdown => exact (maybeFinalize_sends _ _ _ now).imp_left fun h => ⟨none, h⟩
  | none =>
    unfold handle
    dsimp only
    split_ifs
    · exact (maybeFinalize_sends self true true now).imp (fun h => ⟨none, h⟩) fun h => ⟨h.1, rfl⟩
    · exact .inl ⟨none, rfl⟩

/-! ### The network -/

theorem Stage.addressed (n : Stage) (self : n.Local) (reading : n.Reading) (msg? : Option n.Msg) :
    ∀ packet ∈ (n.handle self reading msg?).2, n ∈ packet.1.senders := by
  intro packet hmem
  cases n with
  | spawner => cases hmem
  | ingest =>
    rcases IngestStage.handle_sends self reading with hsends | ⟨front, hout, hsends, -⟩
    · cases hsends packet hmem <;> simp [senders]
    · rcases List.mem_append.mp (hout ▸ hmem) with hmem | hmem
      · cases hsends packet hmem <;> simp [senders]
      · rw [List.mem_singleton.mp hmem]
        simp [senders]
  | envelope =>
    rcases EnvelopeStage.handle_sends self msg? with hsends | ⟨hout, -⟩
    · cases hsends packet hmem <;> simp [senders]
    · rcases List.mem_cons.mp (hout ▸ hmem) with rfl | hmem
      · simp [senders]
      · rw [List.mem_singleton.mp hmem]
        simp [senders]
  | hints =>
    rcases HintsStage.handle_sends self reading msg? with ⟨hsends, -⟩ | ⟨front, hout, hsends, -⟩
    · cases hsends packet hmem <;> simp [senders]
    · rcases List.mem_append.mp (hout ▸ hmem) with hmem | hmem
      · cases hsends packet hmem <;> simp [senders]
      · rw [List.mem_singleton.mp hmem]
        simp [senders]
  | compression => cases CompressionStage.handle_sends self msg? packet hmem <;> simp [senders]
  | snapshot =>
    rcases SnapshotStage.handle_sends self reading msg? with ⟨transition?, hout⟩ | ⟨hout, -⟩
    · obtain ⟨transition, -, rfl⟩ := List.mem_map.mp (hout ▸ hmem)
      simp [senders]
    · have hshutdown : packet = ⟨.storage, .shutdown⟩ := List.mem_singleton.mp (hout ▸ hmem)
      rw [hshutdown]
      simp [senders]
  | storage =>
    cases msg? with
    | none => cases hmem
    | some cmd => cases cmd <;> cases hmem

theorem Stage.closes (n : Stage) (self : n.Local) (reading : n.Reading) (h : n.senders ≠ []) :
    n.halted (n.handle self reading none).1 = true := by
  cases n with
  | spawner => exact absurd rfl h
  | ingest => exact absurd rfl h
  | envelope => rfl
  | hints => rfl
  | compression => rfl
  | snapshot => rfl
  | storage => rfl

theorem Stage.refuse_sublist (n : Stage) (self : n.Local) (packet : Packet) (rest : List Packet) :
    (n.refuse self packet rest).2.Sublist rest := by
  cases n with
  | ingest => exact List.nil_sublist rest
  | envelope =>
    show (EnvelopeStage.refuse self packet rest).2.Sublist rest
    unfold EnvelopeStage.refuse
    split
    · exact List.Sublist.refl rest
    · exact List.Sublist.refl rest
    · exact List.nil_sublist rest
    · exact List.nil_sublist rest
    · exact List.Sublist.refl rest
  | compression =>
    show (CompressionStage.refuse self packet rest).2.Sublist rest
    unfold CompressionStage.refuse
    split
    · exact List.dropWhile_sublist _
    · exact List.Sublist.refl rest
  | spawner => exact List.Sublist.refl rest
  | hints => exact List.Sublist.refl rest
  | snapshot => exact List.Sublist.refl rest
  | storage => exact List.Sublist.refl rest

theorem Stage.refuse_halted (n : Stage) (self : n.Local) (packet : Packet) (rest : List Packet)
    (h : n.halted self = true) : n.halted (n.refuse self packet rest).1 = true := by
  cases n with
  | ingest => rfl
  | envelope =>
    show (EnvelopeStage.refuse self packet rest).1.stopped = true
    unfold EnvelopeStage.refuse
    split
    · exact h
    · exact h
    · rfl
    · rfl
    · exact h
  | compression =>
    show (CompressionStage.refuse self packet rest).1.stopped = true
    unfold CompressionStage.refuse
    split
    · exact h
    · exact h
  | spawner => exact h
  | hints => exact h
  | snapshot => exact h
  | storage => exact h

theorem Stage.upstream {p n : Stage} (h : p ∈ n.senders) : p < n := by
  show p.rank < n.rank
  revert h
  cases p <;> cases n <;> decide

def pipeline (cfg : PipelineConfig) : Network Stage.Msg Stage.Reading Stage.Local where
  init := Stage.init cfg
  senders := Stage.senders
  handle := Stage.handle
  halted := Stage.halted
  refuse := Stage.refuse
  upstream := Stage.upstream
  addressed := Stage.addressed
  closes := Stage.closes
  refuse_sublist := Stage.refuse_sublist
  refuse_halted := Stage.refuse_halted

instance (n : Stage) : Nonempty n.Reading :=
  match n with
  | .ingest => ⟨.disconnected⟩
  | .hints => ⟨⟨0, 0⟩⟩
  | .snapshot => ⟨(0 : Int)⟩
  | .spawner | .envelope | .compression | .storage => ⟨()⟩

end Kronical
