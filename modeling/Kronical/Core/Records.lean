import Kronical.Core.Event
import Kronical.Lib.MovePath

/-!
# The record builder

`RecordBuilder` cuts the session into activity records: every focus, title or state hint that
changes something closes the open record and opens the next one. It reads the clock when it closes a
record and again when it opens one, so the readings are arguments here. The builder's title interner
returns a string equal to its argument, and is left out.
-/

namespace Kronical

structure ActivityRecord where
  recordId : Nat
  runId : Option String
  startTime : DateTime
  endTime : Option DateTime
  state : ActivityState
  focusInfo : Option WindowFocusInfo
  eventCount : Nat
  triggeringEvents : List Nat
  deriving DecidableEq, Repr

structure RecordBuilder where
  currentState : ActivityState
  currentRecord : Option ActivityRecord
  currentFocus : Option WindowFocusInfo
  nextRecordId : Nat
  deriving DecidableEq, Repr

namespace RecordBuilder

def withNextRecordId (initialState : ActivityState) (nextRecordId : Nat) : RecordBuilder :=
  { currentState := initialState, currentRecord := none, currentFocus := none, nextRecordId }

def new (initialState : ActivityState) : RecordBuilder := withNextRecordId initialState 0

def startNewCurrent (self : RecordBuilder) (nowUtc : DateTime) : RecordBuilder :=
  { self with
    currentRecord := some
      { recordId := self.nextRecordId, runId := none, startTime := nowUtc, endTime := none,
        state := self.currentState, focusInfo := self.currentFocus, eventCount := 0,
        triggeringEvents := [] }
    nextRecordId := self.nextRecordId + 1 }

def finalizeCurrent (self : RecordBuilder) (nowUtc : DateTime) :
    RecordBuilder × Option ActivityRecord :=
  ({ self with currentRecord := none },
    self.currentRecord.map fun current => { current with endTime := some nowUtc })

/-- The readings of the clock while one hint is handled: when a record is closed and when the next
one is opened. -/
structure HintClock where
  closed : DateTime
  opened : DateTime
  deriving DecidableEq, Repr

def applyFocusChange (self : RecordBuilder) (focusInfo : WindowFocusInfo) (clock : HintClock) :
    RecordBuilder × Option ActivityRecord :=
  let finalized := { self with currentFocus := some focusInfo }.finalizeCurrent clock.closed
  (finalized.1.startNewCurrent clock.opened, finalized.2)

def applyTitleChange (self : RecordBuilder) (windowId : Nat) (newTitle : String)
    (clock : HintClock) : RecordBuilder × Option ActivityRecord :=
  let shouldUpdate := (self.currentFocus.map fun cf => cf.windowId == windowId).getD false
  if shouldUpdate then
    let finalized := self.finalizeCurrent clock.closed
    let retitled := finalized.1.currentFocus.map (·.setTitle newTitle)
    ({ finalized.1 with currentFocus := retitled }.startNewCurrent clock.opened, finalized.2)
  else
    (self, none)

def transitionTo (self : RecordBuilder) (next : ActivityState) (clock : HintClock) :
    RecordBuilder × Option ActivityRecord :=
  if self.currentState ≠ next then
    let finalized := self.finalizeCurrent clock.closed
    ({ finalized.1 with currentState := next }.startNewCurrent clock.opened, finalized.2)
  else
    (self, none)

def onHint (self : RecordBuilder) (env : EventEnvelope) (clock : HintClock) :
    RecordBuilder × Option ActivityRecord :=
  match env.kind, env.payload with
  | .hint .focusChanged, .focus f => self.applyFocusChange f clock
  | .hint .stateChanged, .state _ next => self.transitionTo next clock
  | .hint .titleChanged, .title windowId title => self.applyTitleChange windowId title clock
  | _, _ => (self, none)

def finalizeAll (self : RecordBuilder) (now : DateTime) : RecordBuilder × Option ActivityRecord :=
  self.finalizeCurrent now

/-- The builder over a list of hints, each with its readings of the clock. -/
def consume : Transducer RecordBuilder (EventEnvelope × HintClock) ActivityRecord :=
  fun self hint => ((self.onHint hint.1 hint.2).1, (self.onHint hint.1 hint.2).2.toList)

/-- Hints with the readings of the clock for each of them. -/
def timed (clock : Nat → HintClock) (hints : List EventEnvelope) : List (EventEnvelope × HintClock) :=
  hints.zipIdx.map fun hint => (hint.1, clock hint.2)

theorem timed_map_fst (clock : Nat → HintClock) (hints : List EventEnvelope) :
    (timed clock hints).map Prod.fst = hints := by
  rw [timed, List.map_map]
  exact List.zipIdx_map_fst ..

/-! ### What one hint does -/

theorem onHint_cases (self : RecordBuilder) (env : EventEnvelope) (clock : HintClock) :
    self.onHint env clock = (self, none) ∨
      ∃ state focus, self.onHint env clock =
        ({ self with currentState := state, currentRecord := none, currentFocus := focus }
            |>.startNewCurrent clock.opened,
          self.currentRecord.map fun current => { current with endTime := some clock.closed }) := by
  unfold onHint
  split
  · rename_i focus _ _
    exact .inr ⟨self.currentState, some focus, rfl⟩
  · rename_i next _ _
    unfold transitionTo
    split_ifs
    · exact .inr ⟨next, self.currentFocus, rfl⟩
    · exact .inl rfl
  · rename_i title _ _
    unfold applyTitleChange
    dsimp only
    split_ifs
    · exact .inr ⟨self.currentState, self.currentFocus.map (·.setTitle title), rfl⟩
    · exact .inl rfl
  · exact .inl rfl

/-! ### The builder's state -/

/-- The transition a `StateChanged` hint carries. -/
def stateChange (env : EventEnvelope) : Option StateTransition :=
  match env.kind, env.payload with
  | .hint .stateChanged, .state fromState toState => some { fromState, toState }
  | _, _ => none

theorem onHint_currentState (self : RecordBuilder) (env : EventEnvelope) (clock : HintClock) :
    (self.onHint env clock).1.currentState =
      ((stateChange env).map (·.toState)).getD self.currentState := by
  obtain ⟨id, t, source, kind, payload, derived, polling, sensitive⟩ := env
  rcases kind with kind | kind
  · cases payload <;> rfl
  · cases kind <;> cases payload <;> try rfl
    case stateChanged.state _ next =>
      change (self.transitionTo next clock).1.currentState = next
      unfold transitionTo
      split_ifs with hne
      · rfl
      · exact not_not.mp hne
    case titleChanged.title windowId title =>
      change (self.applyTitleChange windowId title clock).1.currentState = self.currentState
      unfold applyTitleChange
      dsimp only
      split_ifs <;> rfl

/-- The hints that change the builder's state, each with the states before and after it. -/
def changes : Transducer RecordBuilder (EventEnvelope × HintClock) (EventEnvelope × StateTransition) :=
  fun self hint =>
    let next := (self.onHint hint.1 hint.2).1
    (next,
      if self.currentState = next.currentState then []
      else [(hint.1, { fromState := self.currentState, toState := next.currentState })])

theorem changes_run_fst (self : RecordBuilder) (hints : List (EventEnvelope × HintClock)) :
    (changes.run self hints).1 = (consume.run self hints).1 := by
  apply Transducer.run_fst_congr
  intro self hint
  rfl

/-- If the `StateChanged` hints lead from the builder's state to others, one after the other, the
builder changes its state with exactly these hints and ends where they lead. -/
theorem changes_eq (self : RecordBuilder) (hints : List (EventEnvelope × HintClock))
    {last : ActivityState}
    (hpath : MovePath StateTransition.fromState StateTransition.toState self.currentState
      ((hints.map Prod.fst).filterMap stateChange) last)
    (hne : ∀ tr ∈ (hints.map Prod.fst).filterMap stateChange, tr.fromState ≠ tr.toState) :
    (changes.run self hints).2 =
        (hints.map Prod.fst).filterMap (fun env => (stateChange env).map (env, ·)) ∧
      (consume.run self hints).1.currentState = last := by
  rw [← changes_run_fst]
  induction hints generalizing self with
  | nil => exact ⟨rfl, hpath⟩
  | cons hint hints ih =>
    have hnext := self.onHint_currentState hint.1 hint.2
    rw [Transducer.run_cons, List.map_cons]
    rw [List.map_cons] at hpath hne
    cases hchange : stateChange hint.1 with
    | none =>
      rw [hchange] at hnext
      rw [List.filterMap_cons_none hchange] at hpath hne
      rw [List.filterMap_cons_none (by rw [hchange]; rfl)]
      have hstep : (changes self hint).2 = [] := if_pos hnext.symm
      rw [hstep]
      exact ih (changes self hint).1 ((show _ = self.currentState from hnext) ▸ hpath) hne
    | some tr =>
      rw [hchange] at hnext
      rw [List.filterMap_cons_some hchange] at hpath hne
      rw [List.filterMap_cons_some (b := (hint.1, tr)) (by rw [hchange]; rfl)]
      have hleave : tr.fromState = self.currentState := hpath.1
      have harrive : (changes self hint).1.currentState = tr.toState := hnext
      have hmoved : self.currentState ≠ (changes self hint).1.currentState := by
        rw [harrive, ← hleave]
        exact hne tr List.mem_cons_self
      have hstep : (changes self hint).2 = [(hint.1, tr)] := by
        refine (if_neg hmoved).trans ?_
        rw [← hleave]
        exact congrArg (fun state => [(hint.1, StateTransition.mk tr.fromState state)]) harrive
      obtain ⟨hchanges, hlast⟩ := ih (changes self hint).1 (harrive.symm ▸ hpath.2)
        fun t ht => hne t (List.mem_cons_of_mem _ ht)
      rw [hstep, hchanges]
      exact ⟨rfl, hlast⟩

/-! ### Record ids -/

/-- The id of the open record. -/
def openId (self : RecordBuilder) : List Nat := self.currentRecord.toList.map (·.recordId)

theorem finalizeCurrent_id (self : RecordBuilder) (now : DateTime) :
    (self.finalizeCurrent now).2.toList.map (·.recordId) = self.openId := by
  unfold finalizeCurrent openId
  cases self.currentRecord <;> rfl

theorem onHint_ids (self : RecordBuilder) (env : EventEnvelope) (clock : HintClock) :
    (self.onHint env clock = (self, none)) ∨
      ((self.onHint env clock).2.toList.map (·.recordId) = self.openId ∧
        (self.onHint env clock).1.openId = [self.nextRecordId] ∧
        (self.onHint env clock).1.nextRecordId = self.nextRecordId + 1) := by
  rcases self.onHint_cases env clock with hsame | ⟨state, focus, hopened⟩
  · exact .inl hsame
  · rw [hopened]
    exact .inr ⟨self.finalizeCurrent_id clock.closed, rfl, rfl⟩

theorem consume_ids (self : RecordBuilder) (hints : List (EventEnvelope × HintClock)) :
    ∃ n, (consume.run self hints).1.nextRecordId = self.nextRecordId + n ∧
      (consume.run self hints).2.map (·.recordId) ++ (consume.run self hints).1.openId =
        self.openId ++ List.range' self.nextRecordId n := by
  induction hints generalizing self with
  | nil => exact ⟨0, rfl, by simp⟩
  | cons hint hints ih =>
    obtain ⟨n, hnext, hids⟩ := ih (consume self hint).1
    rw [Transducer.run_cons, List.map_append, List.append_assoc, hids, hnext]
    rcases onHint_ids self hint.1 hint.2 with hsame | ⟨hclosed, hopened, hcount⟩
    · have hstep : consume self hint = (self, []) := by rw [consume, hsame]; rfl
      rw [hstep]
      exact ⟨n, rfl, rfl⟩
    · refine ⟨n + 1, ?_, ?_⟩
      · show (self.onHint hint.1 hint.2).1.nextRecordId + n = _
        rw [hcount]
        omega
      · show (self.onHint hint.1 hint.2).2.toList.map _ ++
          ((self.onHint hint.1 hint.2).1.openId ++
            List.range' (self.onHint hint.1 hint.2).1.nextRecordId n) = _
        rw [hclosed, hopened, hcount, List.range'_succ]
        rfl

/-- A hint that opens a record also when none was opened before. -/
def opens (env : EventEnvelope) : Bool :=
  match env.kind, env.payload with
  | .hint .focusChanged, .focus _ => true
  | .hint .stateChanged, .state _ next => next ≠ .inactive
  | _, _ => false

theorem withNextRecordId_onHint (nextRecordId : Nat) (env : EventEnvelope) (clock : HintClock) :
    let fresh := withNextRecordId .inactive nextRecordId
    if opens env then (fresh.onHint env clock).1.nextRecordId = nextRecordId + 1
    else fresh.onHint env clock = (fresh, none) := by
  intro fresh
  obtain ⟨id, t, source, kind, payload, derived, polling, sensitive⟩ := env
  rcases kind with kind | kind
  · cases payload <;> rfl
  · cases kind <;> cases payload <;> try rfl
    case stateChanged.state _ next => cases next <;> rfl

theorem consume_fresh_iff (nextRecordId : Nat) (hints : List (EventEnvelope × HintClock)) :
    (consume.run (withNextRecordId .inactive nextRecordId) hints).1.nextRecordId = nextRecordId ↔
      ∀ hint ∈ hints, opens hint.1 = false := by
  induction hints with
  | nil => simp [withNextRecordId]
  | cons hint hints ih =>
    have hfirst := withNextRecordId_onHint nextRecordId hint.1 hint.2
    rw [Transducer.run_cons_fst, List.forall_mem_cons]
    by_cases hopens : opens hint.1 = true
    · rw [if_pos hopens] at hfirst
      obtain ⟨n, hnext, -⟩ := consume_ids
        (consume (withNextRecordId .inactive nextRecordId) hint).1 hints
      have hcount : (consume (withNextRecordId .inactive nextRecordId) hint).1.nextRecordId =
        nextRecordId + 1 := hfirst
      rw [hnext, hcount, hopens]
      simp only [Bool.true_eq_false, false_and, iff_false]
      omega
    · rw [if_neg hopens] at hfirst
      have hstep : (consume (withNextRecordId .inactive nextRecordId) hint).1 =
        withNextRecordId .inactive nextRecordId := congrArg Prod.fst hfirst
      rw [hstep, ih]
      simp [hopens]

end RecordBuilder

end Kronical
