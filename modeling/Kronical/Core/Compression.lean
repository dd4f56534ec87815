import Mathlib.Data.Rat.Defs
import Kronical.Core.Event

/-!
# Compact events

The summaries that stand for raw events in storage: scroll bursts, mouse trajectories, keyboard
bursts and focus changes. Single-precision rates are exact rationals here, and of a trajectory the
two purely statistical fields (path length and top speed) are left out.
-/

namespace Kronical

/-- The raw events a compact event stands for. -/
structure RawEventPointer where
  table : String
  ids : List Nat
  deriving DecidableEq, Repr

def defaultRawEventTable : String := "raw_events"

def RawEventPointer.new (table : String) (ids : List Nat) : Option RawEventPointer :=
  if ids.isEmpty then none else some ⟨table, ids⟩

inductive ScrollDirection
  | verticalUp
  | verticalDown
  | horizontalLeft
  | horizontalRight
  deriving DecidableEq, Repr

def inferScrollDirection (amount : Int) : WheelAxis → ScrollDirection
  | .vertical => if amount > 0 then .verticalUp else .verticalDown
  | .horizontal => if amount > 0 then .horizontalRight else .horizontalLeft

structure CompactScrollSequence where
  startTime : DateTime
  endTime : DateTime
  direction : ScrollDirection
  totalAmount : Int
  totalRotation : Int
  scrollCount : Nat
  position : MousePosition
  rawEventIds : Option RawEventPointer
  deriving DecidableEq, Repr

inductive MouseTrajectoryType
  | movement
  | drag
  deriving DecidableEq, Repr

structure CompactMouseTrajectory where
  startTime : DateTime
  endTime : DateTime
  eventType : MouseTrajectoryType
  startPosition : MousePosition
  endPosition : MousePosition
  simplifiedPath : List MousePosition
  rawEventIds : Option RawEventPointer
  deriving DecidableEq, Repr

structure CompactKeyboardActivity where
  startTime : DateTime
  endTime : DateTime
  keystrokes : Nat
  keysPerMinute : Rat
  densityPerSec : Rat
  rawEventIds : Option RawEventPointer
  deriving DecidableEq, Repr

structure CompactFocusEvent where
  timestamp : DateTime
  appNameId : Nat
  windowTitleId : Nat
  pid : Int
  windowPosition : Option MousePosition
  rawEventIds : Option RawEventPointer
  deriving DecidableEq, Repr

inductive CompactEvent
  | scroll (sequence : CompactScrollSequence)
  | mouseTrajectory (trajectory : CompactMouseTrajectory)
  | keyboard (activity : CompactKeyboardActivity)
  | focus (event : CompactFocusEvent)
  deriving DecidableEq, Repr

end Kronical
