import Kronical.Core.Records
import Kronical.Lib.Ring

/-!
# Snapshots and the snapshot bus

What the daemon publishes: state transitions as they are shown and stored, the three counters, the
snapshot itself, and the bus that keeps the last snapshot and a ring of the last 64 transitions.
Of the snapshot the fields are kept that the pipeline's own state decides.
-/

namespace Kronical

/-- A state transition as the daemon publishes and stores it. -/
structure Transition where
  fromState : ActivityState
  toState : ActivityState
  atTime : DateTime
  bySignal : Option String
  runId : Option String
  deriving DecidableEq, Repr

/-- A `u64` counter. -/
abbrev U64 := Fin (2 ^ 64)

/-- `u64::saturating_add`. -/
def satAdd (a : U64) (b : Nat) : U64 := ⟨min (a + b) (2 ^ 64 - 1), by omega⟩

theorem satAdd_zero (a : U64) : satAdd a 0 = a := by
  apply Fin.ext
  have ha := a.isLt
  show min (a.val + 0) (2 ^ 64 - 1) = a.val
  omega

theorem satAdd_satAdd (a : U64) (b c : Nat) : satAdd (satAdd a b) c = satAdd a (b + c) := by
  apply Fin.ext
  show min (min (a.val + b) (2 ^ 64 - 1) + c) (2 ^ 64 - 1) = min (a.val + (b + c)) (2 ^ 64 - 1)
  omega

structure Counts where
  signalsSeen : U64
  hintsSeen : U64
  recordsEmitted : U64
  deriving DecidableEq, Repr

def Counts.default : Counts := ⟨0, 0, 0⟩

structure Snapshot where
  seq : Nat
  runId : Option String
  activityState : ActivityState
  focus : Option WindowFocusInfo
  lastTransition : Option Transition
  transitionsRecent : List Transition
  counts : Counts
  cadenceMs : Nat
  cadenceReason : String
  records : List ActivityRecord
  deriving DecidableEq, Repr

def Snapshot.empty : Snapshot :=
  { seq := 0, runId := none, activityState := .inactive, focus := none, lastTransition := none,
    transitionsRecent := [], counts := .default, cadenceMs := 0, cadenceReason := "",
    records := [] }

structure SnapshotBus where
  seq : Nat
  runId : Option String
  snapshot : Snapshot
  transitions : List Transition
  deriving DecidableEq, Repr

namespace SnapshotBus

def new (runId : Option String) : SnapshotBus :=
  { seq := 0, runId, snapshot := .empty, transitions := [] }

def pushTransition (self : SnapshotBus) (t : Transition) : SnapshotBus :=
  { self with transitions := Ring.push 64 self.transitions t }

def recentTransitions (self : SnapshotBus) (limit : Nat) : List Transition :=
  self.transitions.reverse.take limit

def publishBasic (self : SnapshotBus) (state : ActivityState) (focus : Option WindowFocusInfo)
    (lastTransition : Option Transition) (records : List ActivityRecord) (counts : Counts)
    (cadenceMs : Nat) (cadenceReason : String) : SnapshotBus :=
  let seq := self.seq + 1
  { self with
    seq
    snapshot :=
      { seq, runId := self.runId, activityState := state, focus, lastTransition,
        transitionsRecent := self.recentTransitions 5, counts, cadenceMs, cadenceReason,
        records } }

theorem recentTransitions_pushAll (self : SnapshotBus) (hself : self.transitions.length ≤ 64)
    (ts : List Transition) (limit : Nat) :
    (ts.foldl pushTransition self).recentTransitions limit =
      ((ts.reverse ++ self.transitions.reverse).take 64).take limit := by
  have hfold : (ts.foldl pushTransition self).transitions =
      ts.foldl (Ring.push 64) self.transitions := by
    clear hself
    induction ts generalizing self with
    | nil => rfl
    | cons t ts ih => exact ih _
  rw [recentTransitions, hfold, Ring.reverse_foldl_push (by decide) hself]

end SnapshotBus

end Kronical
