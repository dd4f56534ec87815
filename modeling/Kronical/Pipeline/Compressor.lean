import Mathlib.Data.List.Sort
import Mathlib.Data.Rat.Lemmas
import Kronical.Core.Compression
import Kronical.Lib.Transducer

/-!
# The compression engine

`CompressionEngine.compressEvents` hands a batch back unchanged together with its compact events,
made by four compressors that each read the whole batch. Distances are compared through their
squares, which are exact, so the tolerance and the minimal distance appear squared as well.
-/

namespace Kronical

/-- `TimeDelta::num_milliseconds`: whole milliseconds, rounded towards zero. -/
def numMilliseconds (delta : Int) : Int := delta.tdiv 1000000

/-! ### Strings -/

structure StringInterner where
  strings : List String
  lookup : List (String × Nat)
  maxStrings : Nat
  deriving DecidableEq, Repr

namespace StringInterner

def withCap (maxStrings : Nat) : StringInterner :=
  { strings := [], lookup := [], maxStrings := max maxStrings 1 }

/-- The id of a string; a full interner is cleared first and its ids restart. -/
def intern (self : StringInterner) (s : String) : StringInterner × Nat :=
  match self.lookup.lookup s with
  | some id => (self, id)
  | none =>
    let cleared :=
      if self.maxStrings ≤ self.strings.length then { self with strings := [], lookup := [] }
      else self
    let id := cleared.strings.length % 2 ^ 16
    ({ cleared with
        strings := cleared.strings ++ [s]
        lookup := (s, id) :: cleared.lookup }, id)

end StringInterner

/-! ### Scrolling -/

structure ScrollEvent where
  eventId : Nat
  timestamp : DateTime
  position : MousePosition
  signedAmount : Int
  rotation : Int
  axis : WheelAxis
  deriving DecidableEq, Repr

structure ScrollCompressor where
  maxGapMs : Int
  deriving DecidableEq, Repr

namespace ScrollCompressor

def new : ScrollCompressor := ⟨500⟩

def extractScrollEvents (events : List RawEvent) : List ScrollEvent :=
  events.filterMap fun
    | .mouseInput timestamp eventId data =>
      match data.wheelAmount, data.wheelRotation, data.wheelAxis with
      | some amount, some rotation, some axis =>
        some { eventId, timestamp, position := data.position,
               signedAmount := if rotation ≥ 0 then amount else asI32 (-amount), rotation, axis }
      | _, _, _ => none
    | _ => none

def canCompress (events : List RawEvent) : Bool := 1 < (extractScrollEvents events).length

/-- The sequence a wheel event opens. -/
def openSequence (e : ScrollEvent) : CompactScrollSequence :=
  { startTime := e.timestamp, endTime := e.timestamp,
    direction := inferScrollDirection e.signedAmount e.axis, totalAmount := e.signedAmount,
    totalRotation := e.rotation, scrollCount := 1, position := e.position,
    rawEventIds := RawEventPointer.new defaultRawEventTable [e.eventId] }

def extendSequence (sequence : CompactScrollSequence) (e : ScrollEvent) : CompactScrollSequence :=
  { sequence with
    endTime := e.timestamp
    totalAmount := asI32 (sequence.totalAmount + e.signedAmount)
    totalRotation := asI32 (sequence.totalRotation + e.rotation)
    scrollCount := (sequence.scrollCount + 1) % 2 ^ 32
    rawEventIds :=
      match sequence.rawEventIds with
      | some link => some { link with ids := link.ids ++ [e.eventId] }
      | none => RawEventPointer.new defaultRawEventTable [e.eventId] }

/-- One turn of the loop of `compress`: the open sequence grows or is put out. -/
def compressStep (self : ScrollCompressor) :
    Transducer (Option CompactScrollSequence) ScrollEvent CompactScrollSequence
  | some sequence, e =>
    if sequence.direction = inferScrollDirection e.signedAmount e.axis ∧
        numMilliseconds (e.timestamp - sequence.endTime) < self.maxGapMs then
      (some (extendSequence sequence e), [])
    else
      (some (openSequence e), [sequence])
  | none, e => (some (openSequence e), [])

def compress (self : ScrollCompressor) (events : List RawEvent) : List CompactScrollSequence :=
  let (current, sequences) := self.compressStep.run none (extractScrollEvents events)
  sequences ++ current.toList

end ScrollCompressor

/-! ### Mouse movement -/

structure MouseEvent where
  eventId : Nat
  timestamp : DateTime
  position : MousePosition
  kind : MouseTrajectoryType
  deriving DecidableEq, Repr

structure MouseTrajectoryCompressor where
  maxGapMs : Int
  minDistanceSq : Int
  douglasPeuckerEpsilonSq : Rat
  deriving DecidableEq, Repr

namespace MouseTrajectoryCompressor

/-- A gap of 200 ms, a movement of 5 pixels and a tolerance of 2 pixels. -/
def new : MouseTrajectoryCompressor := ⟨200, 5 ^ 2, 2 ^ 2⟩

def extractMouseEvents (events : List RawEvent) : List MouseEvent :=
  events.filterMap fun
    | .mouseInput timestamp eventId data =>
      match data.eventType with
      | some .moved => some ⟨eventId, timestamp, data.position, .movement⟩
      | some .dragged => some ⟨eventId, timestamp, data.position, .drag⟩
      | _ => none
    | _ => none

def calculateDistanceSq (p1 p2 : MousePosition) : Int :=
  (p2.x - p1.x) * (p2.x - p1.x) + (p2.y - p1.y) * (p2.y - p1.y)

def perpendicularDistanceSq (point lineStart lineEnd : MousePosition) : Rat :=
  let a := lineEnd.y - lineStart.y
  let b := lineStart.x - lineEnd.x
  let c := lineEnd.x * lineStart.y - lineStart.x * lineEnd.y
  let numerator := a * point.x + b * point.y + c
  let denominatorSq := a * a + b * b
  if denominatorSq = 0 then 0 else (numerator * numerator : Int) / (denominatorSq : Rat)

/-- The largest distance of an inner point and its first index, both zero if none is positive. -/
def farthest {P D : Type*} [Zero D] [LT D] [DecidableLT D] (distance : P → D) (inner : List P) :
    D × Nat :=
  (inner.zipIdx 1).foldl (fun best point =>
    if best.1 < distance point.1 then (distance point.1, point.2) else best) (0, 0)

/-- The recursion of `douglas_peucker`, which ends after at most `fuel` nested calls. -/
def douglasPeucker {P D : Type*} [Zero D] [LT D] [DecidableLT D] (distance : P → P → P → D)
    (epsilon : D) : Nat → List P → Option (List P)
  | 0, _ => none
  | fuel + 1, points =>
    match points, points.getLast? with
    | first :: _ :: _ :: _, some last =>
      let best := farthest (distance · first last) points.tail.dropLast
      if epsilon < best.1 then do
        let left ← douglasPeucker distance epsilon fuel (points.take (best.2 + 1))
        let right ← douglasPeucker distance epsilon fuel (points.drop best.2)
        some (left.dropLast ++ right)
      else
        some [first, last]
    | _, _ => some points

def buildTrajectory (self : MouseTrajectoryCompressor) (first : MouseEvent)
    (rest : List MouseEvent) (kind : MouseTrajectoryType) : CompactMouseTrajectory :=
  let path := first :: rest
  let last := rest.getLast?.getD first
  let positions := path.map (·.position)
  { startTime := first.timestamp, endTime := last.timestamp, eventType := kind,
    startPosition := first.position, endPosition := last.position,
    simplifiedPath := (douglasPeucker perpendicularDistanceSq self.douglasPeuckerEpsilonSq
      positions.length positions).getD []
    rawEventIds := RawEventPointer.new defaultRawEventTable (path.map (·.eventId)) }

/-- A finished path becomes a trajectory if it has more than two points. -/
def finalizePath (self : MouseTrajectoryCompressor) (path : List MouseEvent)
    (kind : Option MouseTrajectoryType) : List CompactMouseTrajectory :=
  match path, kind with
  | first :: second :: third :: rest, some kind =>
    [self.buildTrajectory first (second :: third :: rest) kind]
  | _, _ => []

/-- One turn of the loop of `compress`, over the open path and its kind. -/
def compressStep (self : MouseTrajectoryCompressor) :
    Transducer (List MouseEvent × Option MouseTrajectoryType) MouseEvent CompactMouseTrajectory
  | (path, kind), e =>
    match path.getLast? with
    | some last =>
      if numMilliseconds (e.timestamp - last.timestamp) > self.maxGapMs ∨
          calculateDistanceSq last.position e.position < self.minDistanceSq ∨
          kind.any (· ≠ e.kind) then
        (([e], some e.kind), self.finalizePath path kind)
      else
        ((path ++ [e], some e.kind), [])
    | none => (([e], some e.kind), [])

def canCompress (events : List RawEvent) : Bool := 2 < (extractMouseEvents events).length

def compress (self : MouseTrajectoryCompressor) (events : List RawEvent) :
    List CompactMouseTrajectory :=
  let mouseEvents := extractMouseEvents events
  if mouseEvents.length < 3 then
    []
  else
    let (current, trajectories) := self.compressStep.run ([], none) mouseEvents
    trajectories ++ self.finalizePath current.1 current.2

end MouseTrajectoryCompressor

/-! ### Typing -/

structure KeyboardActivityCompressor where
  maxGapMs : Int
  deriving DecidableEq, Repr

namespace KeyboardActivityCompressor

def new : KeyboardActivityCompressor := ⟨30000⟩

def extractKeyboardEvents (events : List RawEvent) : List (Nat × DateTime) :=
  events.filterMap fun
    | .keyboardInput timestamp eventId _ => some (eventId, timestamp)
    | _ => none

def canCompress (events : List RawEvent) : Bool :=
  events.any fun
    | .keyboardInput .. => true
    | _ => false

/-- The open burst of `compress`. -/
structure Group where
  ids : List Nat
  start : DateTime
  finish : DateTime
  deriving DecidableEq, Repr

def flush (group : Group) : CompactKeyboardActivity :=
  let durationSecs := max (numSeconds (group.finish - group.start)) 1
  let keystrokes := group.ids.length % 2 ^ 32
  { startTime := group.start, endTime := group.finish, keystrokes,
    keysPerMinute := keystrokes / (durationSecs / 60), densityPerSec := keystrokes / durationSecs,
    rawEventIds := RawEventPointer.new defaultRawEventTable group.ids }

/-- One turn of the loop of `compress`. -/
def compressStep (self : KeyboardActivityCompressor) :
    Transducer Group (Nat × DateTime) CompactKeyboardActivity
  | group, (id, ts) =>
    if numMilliseconds (ts - group.finish) ≤ self.maxGapMs then
      ({ group with ids := group.ids ++ [id], finish := ts }, [])
    else
      ({ ids := [id], start := ts, finish := ts }, [flush group])

def compress (self : KeyboardActivityCompressor) (events : List RawEvent) :
    List CompactKeyboardActivity :=
  match (extractKeyboardEvents events).insertionSort (fun a b => a.2 ≤ b.2) with
  | [] => []
  | (id, ts) :: keys =>
    let (group, out) := self.compressStep.run { ids := [id], start := ts, finish := ts } keys
    out ++ [flush group]

end KeyboardActivityCompressor

/-! ### Focus changes -/

structure FocusEventProcessor where
  stringInterner : StringInterner
  deriving DecidableEq, Repr

namespace FocusEventProcessor

def withCap (maxStrings : Nat) : FocusEventProcessor := ⟨.withCap maxStrings⟩

def canCompress (events : List RawEvent) : Bool :=
  events.any fun
    | .windowFocusChange .. => true
    | _ => false

/-- One event: its two strings are interned one after the other. -/
def compressStep : Transducer FocusEventProcessor RawEvent CompactFocusEvent
  | self, .windowFocusChange timestamp eventId focusInfo =>
    let (named, appNameId) := self.stringInterner.intern focusInfo.appName
    let (titled, windowTitleId) := named.intern focusInfo.windowTitle
    (⟨titled⟩,
      [{ timestamp, appNameId, windowTitleId, pid := focusInfo.pid,
         windowPosition := focusInfo.windowPosition,
         rawEventIds := RawEventPointer.new defaultRawEventTable [eventId] }])
  | self, _ => (self, [])

def compress (self : FocusEventProcessor) (events : List RawEvent) :
    FocusEventProcessor × List CompactFocusEvent :=
  compressStep.run self events

end FocusEventProcessor

/-! ### The engine -/

structure CompressionEngine where
  scrollCompressor : ScrollCompressor
  mouseCompressor : MouseTrajectoryCompressor
  keyboardCompressor : KeyboardActivityCompressor
  focusProcessor : FocusEventProcessor
  deriving DecidableEq, Repr

namespace CompressionEngine

def withFocusCap (maxStrings : Nat) : CompressionEngine :=
  { scrollCompressor := .new, mouseCompressor := .new, keyboardCompressor := .new,
    focusProcessor := .withCap maxStrings }

/-- The batch, unchanged, and its compact events. -/
def compressEvents (self : CompressionEngine) (rawEvents : List RawEvent) :
    CompressionEngine × (List RawEvent × List CompactEvent) :=
  if rawEvents.isEmpty then
    (self, [], [])
  else
    let scrolls :=
      if ScrollCompressor.canCompress rawEvents then self.scrollCompressor.compress rawEvents
      else []
    let trajectories :=
      if MouseTrajectoryCompressor.canCompress rawEvents then
        self.mouseCompressor.compress rawEvents
      else []
    let keyboards :=
      if KeyboardActivityCompressor.canCompress rawEvents then
        self.keyboardCompressor.compress rawEvents
      else []
    let focused :=
      if FocusEventProcessor.canCompress rawEvents then self.focusProcessor.compress rawEvents
      else (self.focusProcessor, [])
    ({ self with focusProcessor := focused.1 },
      rawEvents,
      scrolls.map .scroll ++ trajectories.map .mouseTrajectory ++ keyboards.map .keyboard ++
        focused.2.map .focus)

theorem compressEvents_raw (self : CompressionEngine) (rawEvents : List RawEvent) :
    (self.compressEvents rawEvents).2.1 = rawEvents := by
  by_cases hempty : rawEvents.isEmpty
  · rw [compressEvents, if_pos hempty]
    exact (List.isEmpty_iff.mp hempty).symm
  · rw [compressEvents, if_neg hempty]

end CompressionEngine

end Kronical
