import Kronical.Core.Event
import Kronical.Lib.MovePath

/-!
# The state engine

`DefaultStateEngine` recomputes the activity state from the time of the last signal on every call,
except while the machine is locked; `StateDeriver` wraps it and turns each returned transition into a
`StateChanged` hint.

The invariant is `Coherent`: the engine is in state `Locked` exactly while it is locked. Under it
every returned transition leads from the state before the call to the state after it and is a real
change (`onSignal_moves`, `onTick_moves`), so the transitions of a run form a path from `Inactive`
(`react_path`).
-/

namespace Kronical

/-! ### The engine -/

structure DefaultStateEngine where
  current : ActivityState
  lastSignalTime : DateTime
  activeGraceSecs : Int
  idleThresholdSecs : Int
  locked : Bool
  deriving DecidableEq, Repr

namespace DefaultStateEngine

def new (now : DateTime) (activeGraceSecs idleThresholdSecs : Int) : DefaultStateEngine :=
  { current := .inactive, lastSignalTime := now, activeGraceSecs, idleThresholdSecs,
    locked := false }

def compute (self : DefaultStateEngine) (now : DateTime) : ActivityState :=
  if self.locked then
    .locked
  else
    let dt := numSeconds (now - self.lastSignalTime)
    if dt ≤ self.activeGraceSecs then .active
    else if dt ≤ self.idleThresholdSecs then .passive
    else .inactive

/-- The tail of `on_signal` and `on_tick`: a transition if the computed state is a new one. -/
def settle (self : DefaultStateEngine) (next : ActivityState) :
    DefaultStateEngine × Option StateTransition :=
  if next ≠ self.current then
    ({ self with current := next }, some { fromState := self.current, toState := next })
  else
    (self, none)

def onSignal (self : DefaultStateEngine) (event : EventEnvelope) (now : DateTime) :
    DefaultStateEngine × Option StateTransition :=
  match event.kind with
  | .signal .lockStart =>
    if self.locked then
      (self, none)
    else
      ({ self with locked := true, current := .locked },
        some { fromState := self.current, toState := .locked })
  | .signal .lockEnd =>
    if !self.locked then
      (self, none)
    else
      let unlocked := { self with locked := false }
      let next := unlocked.compute now
      ({ unlocked with current := next }, some { fromState := self.current, toState := next })
  | .signal _ =>
    if self.locked then
      (self, none)
    else
      let touched := { self with lastSignalTime := now }
      touched.settle (touched.compute now)
  | .hint _ => (self, none)

def onTick (self : DefaultStateEngine) (now : DateTime) :
    DefaultStateEngine × Option StateTransition :=
  if self.locked then (self, none) else self.settle (self.compute now)

/-! ### Its invariant -/

/-- The engine is in state `Locked` exactly while it is locked. -/
def Coherent (self : DefaultStateEngine) : Prop := self.current = .locked ↔ self.locked = true

theorem coherent_new (now : DateTime) (grace idle : Int) : (new now grace idle).Coherent := by
  simp [Coherent, new]

theorem compute_eq_locked_iff (self : DefaultStateEngine) (now : DateTime) :
    self.compute now = .locked ↔ self.locked = true := by
  unfold compute
  split_ifs with hlocked <;> simp [hlocked]
  split_ifs <;> simp

/-- What one call does to a coherent engine: nothing but the time of the last signal, or one real
transition from the state before to the state after. -/
def Moves (self next : DefaultStateEngine) (transition : Option StateTransition) : Prop :=
  next.Coherent ∧ MovePath StateTransition.fromState StateTransition.toState self.current
    transition.toList next.current ∧ ∀ tr ∈ transition, tr.fromState ≠ tr.toState

theorem Moves.stay {self next : DefaultStateEngine} (hself : self.Coherent)
    (hcurrent : next.current = self.current) (hlocked : next.locked = self.locked) :
    self.Moves next none := by
  refine ⟨?_, by simp [hcurrent], by simp⟩
  rw [Coherent, hcurrent, hlocked]
  exact hself

theorem Moves.go {self : DefaultStateEngine} (next : DefaultStateEngine) (hnext : next.Coherent)
    (hne : next.current ≠ self.current) :
    self.Moves next (some { fromState := self.current, toState := next.current }) :=
  ⟨hnext, by simp, by simpa using hne.symm⟩

theorem settle_compute_moves (self : DefaultStateEngine) (hself : self.Coherent) (now : DateTime) :
    self.Moves (self.settle (self.compute now)).1 (self.settle (self.compute now)).2 := by
  unfold settle
  split_ifs with hne
  · exact .go { self with current := self.compute now }
      (compute_eq_locked_iff self now) hne
  · exact .stay hself rfl rfl

theorem onSignal_moves {self : DefaultStateEngine} (hself : self.Coherent) (event : EventEnvelope)
    (now : DateTime) : self.Moves (self.onSignal event now).1 (self.onSignal event now).2 := by
  unfold onSignal
  split
  · split_ifs with hlocked
    · exact .stay hself rfl rfl
    · refine .go { self with locked := true, current := .locked } (by simp [Coherent]) ?_
      exact fun h => hlocked (hself.mp h.symm)
  · split_ifs with hlocked
    · exact .stay hself rfl rfl
    · let unlocked := { self with locked := false }
      have hcompute : unlocked.compute now ≠ .locked := by
        rw [Ne, compute_eq_locked_iff]
        simp [unlocked]
      refine .go { unlocked with current := unlocked.compute now } ?_ ?_
      · simpa [Coherent, unlocked] using hcompute
      · rw [hself.mpr (by simpa using hlocked)]
        exact hcompute
  · split_ifs with hlocked
    · exact .stay hself rfl rfl
    · exact settle_compute_moves { self with lastSignalTime := now } hself now
  · exact .stay hself rfl rfl

theorem onTick_moves {self : DefaultStateEngine} (hself : self.Coherent) (now : DateTime) :
    self.Moves (self.onTick now).1 (self.onTick now).2 := by
  unfold onTick
  split_ifs
  · exact .stay hself rfl rfl
  · exact settle_compute_moves self hself now

/-! ### Runs of the engine -/

/-- What makes the engine move: a signal envelope, taken at its own timestamp, or a tick. -/
inductive Stimulus
  | signal (env : EventEnvelope)
  | tick (now : DateTime)
  deriving DecidableEq, Repr

/-- The instant a stimulus is handled at. -/
def Stimulus.time : Stimulus → DateTime
  | .signal env => env.timestamp
  | .tick now => now

/-- One call of the engine and the transition it returned, with its instant. -/
def react : Transducer DefaultStateEngine Stimulus (DateTime × StateTransition)
  | self, .signal env =>
    ((self.onSignal env env.timestamp).1,
      (self.onSignal env env.timestamp).2.toList.map (env.timestamp, ·))
  | self, .tick now =>
    ((self.onTick now).1, (self.onTick now).2.toList.map (now, ·))

theorem react_moves {self : DefaultStateEngine} (hself : self.Coherent) (stimulus : Stimulus) :
    ∃ tr : Option StateTransition, (react self stimulus).2 = tr.toList.map (stimulus.time, ·) ∧
      self.Moves (react self stimulus).1 tr := by
  cases stimulus with
  | signal env => exact ⟨_, rfl, onSignal_moves hself env env.timestamp⟩
  | tick now => exact ⟨_, rfl, onTick_moves hself now⟩

theorem coherent_react (self : DefaultStateEngine) (stimulus : Stimulus) (hself : self.Coherent) :
    (react self stimulus).1.Coherent := by
  obtain ⟨_, _, hmoves⟩ := react_moves hself stimulus
  exact hmoves.1

/-- The transitions of a run lead from the engine's state before it to its state after it. -/
theorem react_path {self : DefaultStateEngine} (hself : self.Coherent) (stimuli : List Stimulus) :
    MovePath (·.2.fromState) (·.2.toState) self.current (react.run self stimuli).2
      (react.run self stimuli).1.current := by
  refine MovePath.run coherent_react (fun engine stimulus hengine => ?_) stimuli hself
  obtain ⟨tr, hout, hmoves⟩ := react_moves hengine stimulus
  rw [hout]
  cases tr with
  | none => exact hmoves.2.1
  | some tr => simpa using hmoves.2.1

theorem react_ne {self : DefaultStateEngine} (hself : self.Coherent) (stimuli : List Stimulus) :
    ∀ tr ∈ (react.run self stimuli).2, tr.2.fromState ≠ tr.2.toState := by
  refine Transducer.run_output coherent_react (fun engine stimulus hengine => ?_) stimuli hself
  obtain ⟨tr, hout, hmoves⟩ := react_moves hengine stimulus
  rw [hout]
  simpa using hmoves.2.2

theorem react_time (self : DefaultStateEngine) (stimulus : Stimulus) :
    ∀ tr ∈ (react self stimulus).2, tr.1 = stimulus.time := by
  cases stimulus <;> simp [react, Stimulus.time]

end DefaultStateEngine

/-! ### The state deriver -/

structure StateDeriver where
  engine : DefaultStateEngine
  deriving DecidableEq, Repr

namespace StateDeriver

def new (now : DateTime) (activeGraceSecs idleThresholdSecs : Int) : StateDeriver :=
  ⟨.new now activeGraceSecs idleThresholdSecs⟩

/-- The `StateChanged` hint for a transition. -/
def stateHint (id : Nat) (now : DateTime) (tr : StateTransition) : EventEnvelope :=
  .ofDerived id now (.hint .stateChanged) (.state tr.fromState tr.toState)

def onSignal (self : StateDeriver) (env : EventEnvelope) : StateDeriver × Option EventEnvelope :=
  let now := env.timestamp
  (⟨(self.engine.onSignal env now).1⟩, (self.engine.onSignal env now).2.map (stateHint env.id now))

def onTick (self : StateDeriver) (now : DateTime) : StateDeriver × Option EventEnvelope :=
  (⟨(self.engine.onTick now).1⟩,
    (self.engine.onTick now).2.map (stateHint (asU64 (timestampMillis now)) now))

end StateDeriver

end Kronical
