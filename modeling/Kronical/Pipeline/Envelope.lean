import Kronical.Core.Adapter
import Kronical.Core.Engine
import Kronical.Pipeline.Types

/-!
# The envelope stage

The stage turns every batch into envelopes, forwards each of them (hints to the hints stage, signals
to storage), lets the state deriver answer every signal, and tells the snapshot stage about all of it
through `SnapshotUpdate`s: one update collects what is noted until a state transition forces it out.

`expand` is what the stage does to the envelopes alone: each signal is followed by the state hint it
causes. What goes to the hints stage and to storage is the expanded list, split by kind, and the updates
sent carry its transitions, each in an update of its own.
-/

namespace Kronical

/-- `{kind:?}`. -/
def SignalKind.debug : SignalKind → String
  | .keyboardInput => "KeyboardInput"
  | .mouseInput => "MouseInput"
  | .appChanged => "AppChanged"
  | .windowChanged => "WindowChanged"
  | .activityPulse => "ActivityPulse"
  | .lockStart => "LockStart"
  | .lockEnd => "LockEnd"

/-! ### Collecting an update -/

def applyFocusUpdate (update : SnapshotUpdate) (env : EventEnvelope) : SnapshotUpdate :=
  match env.payload with
  | .focus focus => { update with focus := some focus }
  | .title windowId title => { update with focusTitle := some (windowId, title) }
  | _ => update

def transitionReason (env : EventEnvelope) (signalKind : Option SignalKind) : Option String :=
  match signalKind with
  | some kind => some kind.debug
  | none =>
    if env.kind = .hint .stateChanged ∧ env.source = .derived then some "IdleTimeout" else none

/-- The transition an envelope reports. -/
def reported (env : EventEnvelope) (signalKind : Option SignalKind) : Option Transition :=
  match env.payload with
  | .state fromState toState =>
    some { fromState, toState, atTime := env.timestamp,
           bySignal := transitionReason env signalKind, runId := none }
  | _ => none

def applyStateUpdateHint (update : SnapshotUpdate) (env : EventEnvelope)
    (signalKind : Option SignalKind) : SnapshotUpdate :=
  match reported env signalKind with
  | some transition =>
    { update with transition := some transition, state := some transition.toState }
  | none => update

def applyStateUpdateSignal (update : SnapshotUpdate) (env : EventEnvelope)
    (signalKind : SignalKind) : SnapshotUpdate :=
  applyStateUpdateHint update env (some signalKind)

def flushSnapshotUpdate (update : SnapshotUpdate) : SnapshotUpdate × List Packet :=
  if update.isEmpty then (update, []) else (.default, [⟨.snapshot, .update update⟩])

/-- The update leaves as soon as it holds a transition. -/
def flushTransition (update : SnapshotUpdate) : SnapshotUpdate × List Packet :=
  if update.transition.isSome then flushSnapshotUpdate update else (update, [])

/-! ### One envelope -/

/-- A hint envelope, derived or not, is counted, noted and sent to the hints stage. -/
def forwardHint (update : SnapshotUpdate) (hint : EventEnvelope) (signalKind : Option SignalKind) :
    SnapshotUpdate × List Packet :=
  let counted := { update with hintsDelta := update.hintsDelta + 1 }
  let flushed :=
    flushTransition (applyStateUpdateHint (applyFocusUpdate counted hint) hint signalKind)
  (flushed.1, ⟨.hints, hint⟩ :: flushed.2)

/-- A signal envelope is counted, noted and sent to storage. -/
def forwardSignal (update : SnapshotUpdate) (env : EventEnvelope) (signalKind : SignalKind) :
    SnapshotUpdate × List Packet :=
  let counted := { update with signalsDelta := update.signalsDelta + 1 }
  let flushed :=
    flushTransition (applyStateUpdateSignal (applyFocusUpdate counted env) env signalKind)
  (flushed.1, ⟨.storage, .envelope env⟩ :: flushed.2)

/-- One turn of the loop over the envelopes of a batch. -/
def handleEnvelope : Transducer (StateDeriver × SnapshotUpdate) EventEnvelope Packet :=
  fun s env =>
    match env.kind with
    | .hint _ =>
      let forwarded := forwardHint s.2 env none
      ((s.1, forwarded.1), forwarded.2)
    | .signal kind =>
      let forwarded := forwardSignal s.2 env kind
      let answer := s.1.onSignal env
      match answer.2 with
      | some hint =>
        let derived := forwardHint forwarded.1 hint (some kind)
        ((answer.1, derived.1), forwarded.2 ++ derived.2)
      | none => ((answer.1, forwarded.1), forwarded.2)

/-! ### The stage -/

structure EnvelopeStage where
  adapter : EventAdapter
  lockDeriver : LockDeriver
  stateDeriver : StateDeriver
  /-- The loop was left. -/
  stopped : Bool
  deriving DecidableEq, Repr

namespace EnvelopeStage

def new (startedAt : DateTime) (activeGraceSecs idleThresholdSecs : Nat) : EnvelopeStage :=
  { adapter := .new, lockDeriver := .new,
    stateDeriver := .new startedAt (asI64 activeGraceSecs) (asI64 idleThresholdSecs),
    stopped := false }

/-- The end of a batch or of a tick: what is left of the update, then the request to publish. -/
def closeUpdate (update : SnapshotUpdate) : List Packet :=
  (if update.isEmpty then [] else [⟨.snapshot, .update update⟩]) ++ [⟨.snapshot, .publish⟩]

/-- The envelopes of a batch and the stage with its adapter and lock deriver moved on. -/
def envelopesOf (self : EnvelopeStage) (batch : RawBatch) : EnvelopeStage × List EventEnvelope :=
  let adapted := self.adapter.adaptBatch batch.events
  let derived := self.lockDeriver.derive adapted.2
  ({ self with adapter := adapted.1, lockDeriver := derived.1 }, derived.2)

def handleBatch (self : EnvelopeStage) (batch : RawBatch) : EnvelopeStage × List Packet :=
  if batch.isEmpty then
    (self, [])
  else
    let observed := self.envelopesOf batch
    let handled := handleEnvelope.run (self.stateDeriver, .default) observed.2
    ({ observed.1 with stateDeriver := handled.1.1 },
      handled.2 ++ ⟨.compression, .process batch observed.2⟩ :: closeUpdate handled.1.2)

def handleTick (self : EnvelopeStage) (now : DateTime) : EnvelopeStage × List Packet :=
  let answer := self.stateDeriver.onTick now
  match answer.2 with
  | some stateHint =>
    let forwarded := forwardHint .default stateHint none
    ({ self with stateDeriver := answer.1 }, forwarded.2 ++ closeUpdate forwarded.1)
  | none => ({ self with stateDeriver := answer.1 }, [])

/-- One turn of the stage's loop; without a command the channel is disconnected. -/
def handle (self : EnvelopeStage) : Option DeriveCommand → EnvelopeStage × List Packet
  | some (.batch batch) => self.handleBatch batch
  | some (.tick now) => self.handleTick now
  | some .shutdown =>
    ({ self with stopped := true },
      [⟨.snapshot, .shutdown⟩, ⟨.compression, .shutdown⟩])
  | none => ({ self with stopped := true }, [])

/-- The stage's loop over what it receives. -/
def loop : Transducer EnvelopeStage (Option DeriveCommand) Packet := handle

/-- A failed send to storage or to the hints stage is only logged, and so is one of a shutdown; any
other one ends the stage. -/
def refuse (self : EnvelopeStage) (packet : Packet) (rest : List Packet) :
    EnvelopeStage × List Packet :=
  match packet with
  | ⟨.snapshot, .shutdown⟩ | ⟨.compression, .shutdown⟩ => (self, rest)
  | ⟨.snapshot, _⟩ | ⟨.compression, _⟩ => ({ self with stopped := true }, [])
  | _ => (self, rest)

end EnvelopeStage

end Kronical
