import Kronical.Pipeline.Types

/-!
# The rows the writers insert

Both background writers turn a command into `INSERT`s of one row each, with the same columns. A column
that holds the JSON text of a value is that value here, since nothing but that value can be read from
it; only the payload of an envelope is kept as a text, because its reader does not parse every text
the way it was written. What the writers use of `serde_json` for it is a parameter.
-/

namespace Kronical

/-! ### JSON texts -/

/-- The JSON text of a value, and what is read from a text. -/
structure JsonCodec (α : Type) where
  toString : α → String
  fromStr : String → Option α

/-- `serde_json` at the types of the payloads. The reason of a lock is only ever written. -/
structure PayloadSerde where
  keyboard : JsonCodec KeyboardEventData
  mouse : JsonCodec MouseEventData
  focus : JsonCodec WindowFocusInfo
  reason : String → String
  title : JsonCodec (Nat × String)
  states : JsonCodec (String × String)

/-! ### Labels -/

/-- `{state:?}`. -/
def ActivityState.debug : ActivityState → String
  | .active => "Active"
  | .passive => "Passive"
  | .inactive => "Inactive"
  | .locked => "Locked"

def RawEvent.eventType : RawEvent → String
  | .keyboardInput .. => "keyboard"
  | .mouseInput .. => "mouse"
  | .windowFocusChange .. => "window_focus_change"

def sourceLabel : EventSource → String
  | .hook => "hook"
  | .derived => "derived"
  | .polling => "polling"

def kindLabel : EventKind → String
  | .signal .keyboardInput => "signal:keyboard"
  | .signal .mouseInput => "signal:mouse"
  | .signal .appChanged => "signal:app_changed"
  | .signal .windowChanged => "signal:window_changed"
  | .signal .activityPulse => "signal:activity_pulse"
  | .signal .lockStart => "signal:lock_start"
  | .signal .lockEnd => "signal:lock_end"
  | .hint .focusChanged => "hint:focus_changed"
  | .hint .stateChanged => "hint:state_changed"
  | .hint .titleChanged => "hint:title_changed"
  | .hint .positionChanged => "hint:position"
  | .hint .sizeChanged => "hint:size"

def payloadJson (serde : PayloadSerde) : EventPayload → Option String
  | .keyboard data => some (serde.keyboard.toString data)
  | .mouse data => some (serde.mouse.toString data)
  | .focus info => some (serde.focus.toString info)
  | .lock reason => some (serde.reason reason)
  | .title windowId title => some (serde.title.toString (windowId, title))
  | .state fromState toState => some (serde.states.toString (fromState.debug, toState.debug))
  | .none => none

/-! ### Rows -/

structure RawEventRow where
  timestamp : DateTime
  eventType : String
  data : RawEvent
  deriving DecidableEq, Repr

structure RecordRow where
  recordId : Int
  startTime : DateTime
  endTime : Option DateTime
  state : String
  focusInfo : Option WindowFocusInfo
  runId : Option String
  deriving DecidableEq, Repr

/-- A row of `raw_envelopes`. The backends differ in the types of its instant and of its flags. -/
structure EnvelopeRow (Time Flag : Type) where
  eventId : Option Int
  timestamp : Time
  source : String
  kind : String
  payload : Option String
  derived : Flag
  polling : Flag
  sensitive : Flag
  deriving DecidableEq, Repr

structure CompactRow where
  startTime : DateTime
  endTime : DateTime
  kind : String
  payload : CompactEvent
  rawEventRef : Option RawEventPointer
  deriving DecidableEq, Repr

structure TransitionRow where
  atTime : DateTime
  fromState : String
  toState : String
  bySignal : Option String
  runId : Option String
  deriving DecidableEq, Repr

inductive Row
  | rawEvent (row : RawEventRow)
  | record (row : RecordRow)
  | envelope (row : EnvelopeRow DateTime Bool)
  | compactEvent (row : CompactRow)
  | transition (row : TransitionRow)
  deriving DecidableEq, Repr

def envelopeRow (serde : PayloadSerde) (env : EventEnvelope) : EnvelopeRow DateTime Bool :=
  { eventId := some (asI64 env.id), timestamp := env.timestamp, source := sourceLabel env.source,
    kind := kindLabel env.kind, payload := payloadJson serde env.payload, derived := env.derived,
    polling := env.polling, sensitive := env.sensitive }

def compactRow : CompactEvent → CompactRow
  | .scroll s =>
    { startTime := s.startTime, endTime := s.endTime, kind := "compact:scroll",
      payload := .scroll s, rawEventRef := s.rawEventIds }
  | .mouseTrajectory t =>
    { startTime := t.startTime, endTime := t.endTime, kind := "compact:mouse_traj",
      payload := .mouseTrajectory t, rawEventRef := t.rawEventIds }
  | .keyboard k =>
    { startTime := k.startTime, endTime := k.endTime, kind := "compact:keyboard",
      payload := .keyboard k, rawEventRef := k.rawEventIds }
  | .focus f =>
    { startTime := f.timestamp, endTime := f.timestamp, kind := "compact:focus",
      payload := .focus f, rawEventRef := f.rawEventIds }

/-- The rows a command inserts, in order. -/
def StorageCommand.rows (serde : PayloadSerde) : StorageCommand → List Row
  | .rawEvent event =>
    [.rawEvent { timestamp := event.timestamp, eventType := event.eventType, data := event }]
  | .record r =>
    [.record
      { recordId := asI64 r.recordId, startTime := r.startTime, endTime := r.endTime,
        state := r.state.debug, focusInfo := r.focusInfo, runId := r.runId }]
  | .envelope env => [.envelope (envelopeRow serde env)]
  | .compactEvents events => events.map fun event => .compactEvent (compactRow event)
  | .transition t =>
    [.transition
      { atTime := t.atTime, fromState := t.fromState.debug, toState := t.toState.debug,
        bySignal := t.bySignal, runId := t.runId }]
  | .shutdown => []

end Kronical
