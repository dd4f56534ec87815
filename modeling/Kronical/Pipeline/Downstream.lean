import Kronical.Pipeline.Compressor
import Kronical.Pipeline.Types

/-!
# The hints, compression and storage stages

The three stages that write: the hints stage stores hint envelopes and the records they close, the
compression stage stores raw and compact events, and the storage stage hands what it receives to the
database until it is shut down.
-/

namespace Kronical

/-! ### The hints stage -/

structure HintsStage where
  recordBuilder : RecordBuilder
  runId : Option String
  /-- The loop was left. -/
  stopped : Bool
  deriving DecidableEq, Repr

namespace HintsStage

def new (runId : Option String) (nextRecordId : Nat) : HintsStage :=
  { recordBuilder := .withNextRecordId .inactive nextRecordId, runId, stopped := false }

/-- A closed record goes to storage and to the snapshot stage. -/
def emitRecord (self : HintsStage) (record : ActivityRecord) : List Packet :=
  let record := { record with runId := self.runId }
  [⟨.storage, .record record⟩, ⟨.snapshot, .record record⟩]

/-- One turn of the stage's loop; without a hint the channel is disconnected and the open record is
closed. -/
def handle (self : HintsStage) (clock : RecordBuilder.HintClock) :
    Option EventEnvelope → HintsStage × List Packet
  | some env =>
    let answer := self.recordBuilder.onHint env clock
    ({ self with recordBuilder := answer.1 },
      ⟨.storage, .envelope env⟩ :: answer.2.toList.flatMap self.emitRecord)
  | none =>
    let answer := self.recordBuilder.finalizeAll clock.closed
    ({ self with recordBuilder := answer.1, stopped := true },
      answer.2.toList.flatMap self.emitRecord ++ [⟨.snapshot, .hintsComplete⟩])

/-- The stage's loop over what it receives, each with the readings of the clock. -/
def loop : Transducer HintsStage (RecordBuilder.HintClock × Option EventEnvelope) Packet :=
  fun self i => self.handle i.1 i.2

/-- What the stage receives, with the readings of the clock, until its channel is disconnected. -/
def received (hints : List (EventEnvelope × RecordBuilder.HintClock))
    (final : RecordBuilder.HintClock) : List (RecordBuilder.HintClock × Option EventEnvelope) :=
  hints.map (fun hint => (hint.2, some hint.1)) ++ [(final, none)]

/-- What the record builder emits for these hints, with the record that is open at the end. -/
def builderRecords (self : HintsStage) (hints : List (EventEnvelope × RecordBuilder.HintClock))
    (final : RecordBuilder.HintClock) : List ActivityRecord :=
  (RecordBuilder.consume.run self.recordBuilder hints).2 ++
    ((RecordBuilder.consume.run self.recordBuilder hints).1.finalizeAll final.closed).2.toList

theorem emitRecord_records (self : HintsStage) (records : List ActivityRecord) :
    recordsOf (records.flatMap self.emitRecord) =
        records.map (fun record => { record with runId := self.runId }) ∧
      emittedOf (records.flatMap self.emitRecord) =
        records.map (fun record => { record with runId := self.runId }) := by
  induction records with
  | nil => exact ⟨rfl, rfl⟩
  | cons record records ih =>
    rw [List.flatMap_cons, recordsOf_append, emittedOf_append, ih.1, ih.2]
    exact ⟨rfl, rfl⟩

theorem loop_hints (self : HintsStage) (hints : List (EventEnvelope × RecordBuilder.HintClock)) :
    let ran := loop.run self (hints.map fun hint => (hint.2, some hint.1))
    let consumed := RecordBuilder.consume.run self.recordBuilder hints
    ran.1 = { self with recordBuilder := consumed.1 } ∧
      recordsOf ran.2 = consumed.2.map (fun record => { record with runId := self.runId }) ∧
      emittedOf ran.2 = consumed.2.map (fun record => { record with runId := self.runId }) := by
  induction hints generalizing self with
  | nil => exact ⟨rfl, rfl, rfl⟩
  | cons hint hints ih =>
    obtain ⟨hstate, hrecords, hemitted⟩ := ih (self.loop (hint.2, some hint.1)).1
    obtain ⟨hstored, hseen⟩ :=
      self.emitRecord_records (self.recordBuilder.onHint hint.1 hint.2).2.toList
    rw [List.map_cons, Transducer.run_cons, Transducer.run_cons RecordBuilder.consume]
    dsimp only
    rw [recordsOf_append, emittedOf_append, hrecords, hemitted, List.map_append]
    exact ⟨hstate, congrArg (· ++ _) hstored, congrArg (· ++ _) hseen⟩

theorem loop_received (self : HintsStage) (hints : List (EventEnvelope × RecordBuilder.HintClock))
    (final : RecordBuilder.HintClock) :
    recordsOf (loop.run self (received hints final)).2 =
        (self.builderRecords hints final).map (fun record => { record with runId := self.runId }) ∧
      emittedOf (loop.run self (received hints final)).2 =
        (self.builderRecords hints final).map
          (fun record => { record with runId := self.runId }) := by
  obtain ⟨hstate, hrecords, hemitted⟩ := self.loop_hints hints
  rw [received, Transducer.run_concat, recordsOf_append, emittedOf_append, hrecords, hemitted,
    hstate, builderRecords, List.map_append]
  obtain ⟨hstored, hseen⟩ := self.emitRecord_records
    ((RecordBuilder.consume.run self.recordBuilder hints).1.finalizeAll final.closed).2.toList
  refine ⟨congrArg (HAppend.hAppend _) ?_, congrArg (HAppend.hAppend _) ?_⟩
  · rw [← hstored]
    show recordsOf (_ ++ [_]) = _
    rw [recordsOf_append]
    exact List.append_nil _
  · rw [← hseen]
    show emittedOf (_ ++ [_]) = _
    rw [emittedOf_append]
    exact List.append_nil _

end HintsStage

/-! ### The compression stage -/

/-- One turn of the loop over the envelopes in `forward_raw_events`: the ids to suppress and whether
the machine is locked. -/
def suppressStep (s : List Nat × Bool) (env : EventEnvelope) : List Nat × Bool :=
  match env.kind with
  | .signal .lockStart => (s.1, true)
  | .signal .lockEnd => (s.1, false)
  | .signal .keyboardInput | .signal .mouseInput => if s.2 then (s.1 ++ [env.id], s.2) else s
  | _ => s

/-- The ids of the input that `forward_raw_events` does not store. -/
def suppress (envelopes : List EventEnvelope) : List Nat :=
  (envelopes.foldl suppressStep ([], false)).1

def shouldStore (suppressed : List Nat) : RawEvent → Bool
  | .keyboardInput _ eventId _ | .mouseInput _ eventId _ => !suppressed.contains eventId
  | .windowFocusChange .. => true

def forwardRawEvents (envelopes : List EventEnvelope) (processedEvents : List RawEvent) :
    List Packet :=
  (processedEvents.filter (shouldStore (suppress envelopes))).map fun event =>
    ⟨.storage, .rawEvent event⟩

def forwardCompactEvents (compactEvents : List CompactEvent) : List Packet :=
  if compactEvents.isEmpty then [] else [⟨.storage, .compactEvents compactEvents⟩]

def clearRawEventRefs (compactEvents : List CompactEvent) : List CompactEvent :=
  compactEvents.map fun
    | .scroll s => .scroll { s with rawEventIds := none }
    | .mouseTrajectory t => .mouseTrajectory { t with rawEventIds := none }
    | .keyboard k => .keyboard { k with rawEventIds := none }
    | .focus f => .focus { f with rawEventIds := none }

structure CompressionStage where
  engine : CompressionEngine
  persistRawEvents : Bool
  /-- The loop was left. -/
  stopped : Bool
  deriving DecidableEq, Repr

namespace CompressionStage

def new (focusInternerMaxStrings : Nat) (persistRawEvents : Bool) : CompressionStage :=
  { engine := .withFocusCap focusInternerMaxStrings, persistRawEvents, stopped := false }

/-- One turn of the stage's loop; without a command the channel is disconnected. -/
def handle (self : CompressionStage) : Option CompressionCommand → CompressionStage × List Packet
  | some (.process batch envelopes) =>
    if batch.isEmpty then
      (self, [])
    else
      let compressed := self.engine.compressEvents batch.events
      ({ self with engine := compressed.1 },
        if self.persistRawEvents then
          forwardRawEvents envelopes compressed.2.1 ++ forwardCompactEvents compressed.2.2
        else
          forwardCompactEvents (clearRawEventRefs compressed.2.2))
  | some .shutdown | none => ({ self with stopped := true }, [])

/-- The stage's loop over what it receives. -/
def loop : Transducer CompressionStage (Option CompressionCommand) Packet := handle

/-- After a raw event that cannot be sent the other raw events of the batch are not tried. -/
def refuse (self : CompressionStage) (packet : Packet) (rest : List Packet) :
    CompressionStage × List Packet :=
  match packet with
  | ⟨.storage, .rawEvent _⟩ =>
    (self, rest.dropWhile fun
      | ⟨.storage, .rawEvent _⟩ => true
      | _ => false)
  | _ => (self, rest)

end CompressionStage

/-! ### The storage stage -/

structure StorageStage where
  /-- The commands handed to the database. -/
  stored : List StorageCommand
  /-- The loop was left. -/
  stopped : Bool
  deriving DecidableEq, Repr

namespace StorageStage

def new : StorageStage := ⟨[], false⟩

/-- One turn of the stage's loop; without a command the channel is disconnected. -/
def handle (self : StorageStage) : Option StorageCommand → StorageStage × List Packet
  | some .shutdown | none => ({ self with stopped := true }, [])
  | some cmd => ({ self with stored := self.stored ++ [cmd] }, [])

end StorageStage

end Kronical
