import Mathlib.Data.Fintype.EquivFin
import Kronical.Core.Compression
import Kronical.Core.Snapshot
import Kronical.Lib.Network

/-!
# The messages of the pipeline

The pipeline is six threads and five channels, each channel with one receiving stage, so a message
is addressed by the stage that receives it. The thread that spawns the stages holds clones of four of
the senders until it returns and is a stage without messages here. `spawn_pipeline` spawns a stage
before those that send to it; `Stage` lists them the other way round, upstream first.
-/

namespace Kronical

/-! ### Events from the hooks -/

/-- An event as an input hook reports it, or the request to shut down. -/
inductive KronicalEvent
  | keyboardInput
  | mouseInput (x y : Int) (button : Option MouseButton) (clicks : Nat) (kind : MouseEventKind)
  | mouseWheel (clicks : Nat) (x y : Int) (scrollType : WheelScrollType) (amount : Nat)
      (rotation : Int) (axis : Option WheelAxis)
  | windowFocusChange (focusInfo : WindowFocusInfo)
  | shutdown
  deriving DecidableEq, Repr

/-! ### Commands -/

inductive FlushReason
  | timeout
  | shutdown
  deriving DecidableEq, Repr

structure RawBatch where
  events : List RawEvent
  reason : FlushReason
  deriving DecidableEq, Repr

def RawBatch.isEmpty (self : RawBatch) : Bool := self.events.isEmpty

inductive DeriveCommand
  | batch (batch : RawBatch)
  | tick (now : DateTime)
  | shutdown
  deriving DecidableEq, Repr

inductive CompressionCommand
  | process (batch : RawBatch) (envelopes : List EventEnvelope)
  | shutdown
  deriving DecidableEq, Repr

inductive StorageCommand
  | rawEvent (event : RawEvent)
  | record (record : ActivityRecord)
  | envelope (env : EventEnvelope)
  | compactEvents (events : List CompactEvent)
  | transition (transition : Transition)
  | shutdown
  deriving DecidableEq, Repr

/-- What the snapshot stage has to take over, coalesced over some envelopes. -/
structure SnapshotUpdate where
  hintsDelta : Nat
  signalsDelta : Nat
  focus : Option WindowFocusInfo
  focusTitle : Option (Nat × String)
  transition : Option Transition
  state : Option ActivityState
  deriving DecidableEq, Repr

namespace SnapshotUpdate

/-- `SnapshotUpdate::default()`. -/
def default : SnapshotUpdate :=
  { hintsDelta := 0, signalsDelta := 0, focus := none, focusTitle := none, transition := none,
    state := none }

def isEmpty (self : SnapshotUpdate) : Bool :=
  self.hintsDelta == 0 && self.signalsDelta == 0 && self.focus.isNone && self.focusTitle.isNone &&
    self.transition.isNone && self.state.isNone

end SnapshotUpdate

inductive SnapshotMessage
  | update (update : SnapshotUpdate)
  | record (record : ActivityRecord)
  | publish
  | hintsComplete
  | shutdown
  deriving DecidableEq, Repr

/-! ### Stages -/

/-- The threads of the pipeline, upstream first. -/
inductive Stage
  | spawner
  | ingest
  | envelope
  | hints
  | compression
  | snapshot
  | storage
  deriving Repr

namespace Stage

def rank : Stage → Nat
  | spawner => 0
  | ingest => 1
  | envelope => 2
  | hints => 3
  | compression => 4
  | snapshot => 5
  | storage => 6

theorem rank_injective : Function.Injective rank := by
  intro p n h
  cases p <;> cases n <;> first | rfl | cases h

instance : LinearOrder Stage := LinearOrder.lift' rank rank_injective

instance : Finite Stage :=
  Finite.of_injective (fun n => (⟨n.rank, by cases n <;> decide⟩ : Fin 7)) fun _ _ h =>
    rank_injective (congrArg Fin.val h)

/-- What a stage receives. -/
abbrev Msg : Stage → Type
  | spawner => Empty
  | ingest => Empty
  | envelope => DeriveCommand
  | hints => EventEnvelope
  | compression => CompressionCommand
  | snapshot => SnapshotMessage
  | storage => StorageCommand

end Stage

/-- A message on its way to a stage. -/
abbrev Packet := Network.Packet Stage.Msg

/-- What goes to one stage, in order. -/
def sentTo (n : Stage) (packets : List Packet) : List n.Msg :=
  packets.filterMap (Network.Packet.to n)

@[simp] theorem sentTo_nil (n : Stage) : sentTo n [] = [] := rfl

@[simp] theorem sentTo_append (n : Stage) (packets packets' : List Packet) :
    sentTo n (packets ++ packets') = sentTo n packets ++ sentTo n packets' :=
  List.filterMap_append

@[simp] theorem sentTo_cons_self (n : Stage) (msg : n.Msg) (packets : List Packet) :
    sentTo n (⟨n, msg⟩ :: packets) = msg :: sentTo n packets := by
  rw [sentTo, List.filterMap_cons, Network.Packet.to_self]
  rfl

@[simp] theorem sentTo_cons_of_ne {n k : Stage} (h : k ≠ n) (msg : k.Msg) (packets : List Packet) :
    sentTo n (⟨k, msg⟩ :: packets) = sentTo n packets := by
  rw [sentTo, List.filterMap_cons, Network.Packet.to_of_ne h]
  rfl

theorem sentTo_eq_nil {n : Stage} {packets : List Packet} (h : ∀ packet ∈ packets, packet.1 ≠ n) :
    sentTo n packets = [] :=
  List.filterMap_eq_nil_iff.mpr fun packet hmem => Network.Packet.to_of_ne (h packet hmem)

/-- The update a snapshot message carries. -/
def asUpdate : SnapshotMessage → Option SnapshotUpdate
  | .update update => some update
  | _ => none

/-- The updates among what is sent. -/
def updatesOf (packets : List Packet) : List SnapshotUpdate :=
  (sentTo .snapshot packets).filterMap asUpdate

@[simp] theorem updatesOf_append (packets packets' : List Packet) :
    updatesOf (packets ++ packets') = updatesOf packets ++ updatesOf packets' := by
  rw [updatesOf, sentTo_append, List.filterMap_append, updatesOf, updatesOf]

/-- The transition a storage command stores. -/
def asTransition : StorageCommand → Option Transition
  | .transition transition => some transition
  | _ => none

/-- The raw event a storage command stores. -/
def asRawEvent : StorageCommand → Option RawEvent
  | .rawEvent event => some event
  | _ => none

/-- The transitions among what is sent to storage. -/
def transitionsOf (packets : List Packet) : List Transition :=
  (sentTo .storage packets).filterMap asTransition

@[simp] theorem transitionsOf_append (packets packets' : List Packet) :
    transitionsOf (packets ++ packets') = transitionsOf packets ++ transitionsOf packets' := by
  rw [transitionsOf, sentTo_append, List.filterMap_append, transitionsOf, transitionsOf]

/-- The record a storage command stores. -/
def asRecord : StorageCommand → Option ActivityRecord
  | .record record => some record
  | _ => none

/-- The record a snapshot message carries. -/
def asEmitted : SnapshotMessage → Option ActivityRecord
  | .record record => some record
  | _ => none

/-- The records among what is sent to the snapshot stage. -/
def emittedOf (packets : List Packet) : List ActivityRecord :=
  (sentTo .snapshot packets).filterMap asEmitted

@[simp] theorem emittedOf_append (packets packets' : List Packet) :
    emittedOf (packets ++ packets') = emittedOf packets ++ emittedOf packets' := by
  rw [emittedOf, sentTo_append, List.filterMap_append, emittedOf, emittedOf]

/-- The records among what is sent to storage. -/
def recordsOf (packets : List Packet) : List ActivityRecord :=
  (sentTo .storage packets).filterMap asRecord

@[simp] theorem recordsOf_append (packets packets' : List Packet) :
    recordsOf (packets ++ packets') = recordsOf packets ++ recordsOf packets' := by
  rw [recordsOf, sentTo_append, List.filterMap_append, recordsOf, recordsOf]

end Kronical
