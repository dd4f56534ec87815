import Mathlib.Data.Int.ModEq

/-!
# Raw events and event envelopes

The data that travels through the daemon: `RawEvent` as the input hooks deliver it, and
`EventEnvelope` as the envelope stage derives it from raw events. Instants are nanoseconds since the
Unix epoch; the `u64` ids and the `u32` window ids are natural numbers.
-/

namespace Kronical

/-! ### Time -/

/-- A `DateTime<Utc>`: nanoseconds since the Unix epoch. -/
abbrev DateTime := Int

/-- `TimeDelta::num_seconds`: whole seconds, rounded towards zero. -/
def numSeconds (delta : Int) : Int := delta.tdiv 1000000000

theorem numSeconds_mono {delta delta' : Int} (h : delta ≤ delta') :
    numSeconds delta ≤ numSeconds delta' := Int.tdiv_le_tdiv (by decide) h

theorem numSeconds_nonpos {delta : Int} (h : delta ≤ 0) : numSeconds delta ≤ 0 := numSeconds_mono h

/-- `DateTime::timestamp_millis`: whole milliseconds since the epoch, rounded down. -/
def timestampMillis (t : DateTime) : Int := t / 1000000

/-- `as i64` on a `u64`. -/
def asI64 (n : Nat) : Int := Int.bmod n (2 ^ 64)

/-- What an `i32` operation makes of its exact result. -/
def asI32 (n : Int) : Int := Int.bmod n (2 ^ 32)

/-- `as u64` on an `i64`. -/
def asU64 (n : Int) : Nat := (n % 2 ^ 64).toNat

/-- `str::eq_ignore_ascii_case`. -/
def eqIgnoreAsciiCase (a b : String) : Bool :=
  a.toList.map Char.toLower == b.toList.map Char.toLower

/-! ### Raw events -/

structure MousePosition where
  x : Int
  y : Int
  deriving DecidableEq, Repr

structure KeyboardEventData where
  keyCode : Option Nat
  keyChar : Option Char
  modifiers : List String
  deriving DecidableEq, Repr

inductive MouseButton
  | primary
  | secondary
  | middle
  | button4
  | button5
  | other (code : Nat)
  deriving DecidableEq, Repr

inductive MouseEventKind
  | moved
  | pressed
  | released
  | clicked
  | dragged
  deriving DecidableEq, Repr

inductive WheelAxis
  | vertical
  | horizontal
  deriving DecidableEq, Repr

inductive WheelScrollType
  | unit
  | block
  | unknown (code : Nat)
  deriving DecidableEq, Repr

structure MouseEventData where
  position : MousePosition
  button : Option MouseButton
  clickCount : Option Nat
  eventType : Option MouseEventKind
  wheelAmount : Option Int
  wheelRotation : Option Int
  wheelAxis : Option WheelAxis
  wheelScrollType : Option WheelScrollType
  deriving DecidableEq, Repr

structure WindowFocusInfo where
  pid : Int
  processStartTime : Nat
  appName : String
  windowTitle : String
  windowId : Nat
  windowInstanceStart : DateTime
  windowPosition : Option MousePosition
  windowSize : Option (Nat × Nat)
  deriving DecidableEq, Repr

inductive RawEvent
  | keyboardInput (timestamp : DateTime) (eventId : Nat) (data : KeyboardEventData)
  | mouseInput (timestamp : DateTime) (eventId : Nat) (data : MouseEventData)
  | windowFocusChange (timestamp : DateTime) (eventId : Nat) (focusInfo : WindowFocusInfo)
  deriving DecidableEq, Repr

namespace RawEvent

def timestamp : RawEvent → DateTime
  | .keyboardInput t _ _ => t
  | .mouseInput t _ _ => t
  | .windowFocusChange t _ _ => t

def eventId : RawEvent → Nat
  | .keyboardInput _ id _ => id
  | .mouseInput _ id _ => id
  | .windowFocusChange _ id _ => id

/-- Keyboard and mouse events, as opposed to focus changes. -/
def isInput : RawEvent → Bool
  | .keyboardInput .. => true
  | .mouseInput .. => true
  | .windowFocusChange .. => false

end RawEvent

/-- The app whose focus means that the machine is locked. -/
def WindowFocusInfo.isLogin (focus : WindowFocusInfo) : Bool :=
  eqIgnoreAsciiCase focus.appName "loginwindow"

/-- `window_title = title`. -/
def WindowFocusInfo.setTitle (focus : WindowFocusInfo) (title : String) : WindowFocusInfo :=
  { focus with windowTitle := title }

@[simp] theorem WindowFocusInfo.setTitle_windowId (focus : WindowFocusInfo) (title : String) :
    (focus.setTitle title).windowId = focus.windowId := rfl

@[simp] theorem WindowFocusInfo.setTitle_setTitle (focus : WindowFocusInfo) (title next : String) :
    (focus.setTitle title).setTitle next = focus.setTitle next := rfl

theorem WindowFocusInfo.setTitle_eq_self_iff (focus : WindowFocusInfo) (title : String) :
    focus.setTitle title = focus ↔ title = focus.windowTitle := by
  constructor
  · intro h
    exact congrArg WindowFocusInfo.windowTitle h
  · rintro rfl
    rfl

/-- A window without a known place, for examples. -/
def WindowFocusInfo.sample (appName windowTitle : String) (windowId : Nat) : WindowFocusInfo :=
  { pid := 1, processStartTime := 1, appName, windowTitle, windowId, windowInstanceStart := 0,
    windowPosition := none, windowSize := none }

/-! ### Envelopes -/

inductive ActivityState
  | active
  | passive
  | inactive
  | locked
  deriving DecidableEq, Repr

inductive EventSource
  | hook
  | derived
  | polling
  deriving DecidableEq, Repr

/-- Signals drive state transitions and activity timers. -/
inductive SignalKind
  | keyboardInput
  | mouseInput
  | appChanged
  | windowChanged
  | activityPulse
  | lockStart
  | lockEnd
  deriving DecidableEq, Repr

/-- Hints split records or enrich metadata, but do not affect state. -/
inductive HintKind
  | focusChanged
  | stateChanged
  | titleChanged
  | positionChanged
  | sizeChanged
  deriving DecidableEq, Repr

inductive EventKind
  | signal (kind : SignalKind)
  | hint (kind : HintKind)
  deriving DecidableEq, Repr

inductive EventPayload
  | keyboard (data : KeyboardEventData)
  | mouse (data : MouseEventData)
  | focus (info : WindowFocusInfo)
  | lock (reason : String)
  | title (windowId : Nat) (title : String)
  | state (fromState toState : ActivityState)
  | none
  deriving DecidableEq, Repr

structure EventEnvelope where
  id : Nat
  timestamp : DateTime
  source : EventSource
  kind : EventKind
  payload : EventPayload
  derived : Bool
  polling : Bool
  sensitive : Bool
  deriving DecidableEq, Repr

namespace EventEnvelope

def isSignal (env : EventEnvelope) : Bool :=
  match env.kind with
  | .signal _ => true
  | .hint _ => false

def isHint (env : EventEnvelope) : Bool :=
  match env.kind with
  | .signal _ => false
  | .hint _ => true

/-- An envelope straight from an input hook: neither derived nor polled nor sensitive. -/
def ofHook (eventId : Nat) (timestamp : DateTime) (kind : EventKind) (payload : EventPayload) :
    EventEnvelope :=
  { id := eventId, timestamp, source := .hook, kind, payload,
    derived := false, polling := false, sensitive := false }

/-- An envelope the daemon derives itself. -/
def ofDerived (id : Nat) (timestamp : DateTime) (kind : EventKind) (payload : EventPayload) :
    EventEnvelope :=
  { id, timestamp, source := .derived, kind, payload,
    derived := true, polling := false, sensitive := false }

/-- The envelope carries no state; only the state engine's own hints do. -/
def isPlain (env : EventEnvelope) : Bool :=
  match env.payload with
  | .state _ _ => false
  | _ => true

end EventEnvelope

/-- A state change as the engine reports it. -/
structure StateTransition where
  fromState : ActivityState
  toState : ActivityState
  deriving DecidableEq, Repr

end Kronical
