import Kronical.Core.Engine
import Kronical.Lib.History

/-!
# The activity level

What the state engine computes, said of the history and without a state: the machine is locked if the last
lock signal was a start; there was activity at each other signal that came while it was not; and the level is
that of the time from the last activity to the last stimulus at which the engine looks. The engine is always at
this level, and the transitions it returns are the changes of the level along the history
(`engine_follows_level`).
-/

namespace Kronical

open DefaultStateEngine

/-! ### The level of a history -/

namespace DefaultStateEngine.Stimulus

/-- Whether the machine is locked from here on, if the stimulus says so. -/
def locks : Stimulus → Option Bool
  | .signal env =>
    match env.kind with
    | .signal .lockStart => some true
    | .signal .lockEnd => some false
    | _ => none
  | .tick _ => none

/-- A signal of the user or of the windows. -/
def isActivity : Stimulus → Bool
  | .signal env =>
    match env.kind with
    | .signal .lockStart | .signal .lockEnd | .hint _ => false
    | .signal _ => true
  | .tick _ => false

def isHint : Stimulus → Bool
  | .signal env =>
    match env.kind with
    | .hint _ => true
    | .signal _ => false
  | .tick _ => false

end DefaultStateEngine.Stimulus

namespace ActivityLevel

def isLocked (past : List Stimulus) : Bool := ((past.filterMap (·.locks)).getLast?).getD false

/-- The instants of the signals that came while the machine was not locked. -/
def activity (past : List Stimulus) : List DateTime :=
  History.answers (fun before stimulus =>
    if stimulus.isActivity && !isLocked before then [stimulus.time] else []) past

/-- The instants at which the engine looks: all but hints, and the end of a lock when there is none. -/
def looks (past : List Stimulus) : List DateTime :=
  History.answers (fun before stimulus =>
    if stimulus.isHint || (stimulus.locks = some false && !isLocked before) then [] else [stimulus.time]) past

/-- What the periods make of the time since the last activity, in whole seconds. -/
def levelOf (activeGraceSecs idleThresholdSecs dt : Int) : ActivityState :=
  if dt ≤ activeGraceSecs then .active else if dt ≤ idleThresholdSecs then .passive else .inactive

section

variable (started : DateTime) (activeGraceSecs idleThresholdSecs : Int)

def level (past : List Stimulus) : ActivityState :=
  if isLocked past then .locked
  else
    match (looks past).getLast? with
    | none => .inactive
    | some now =>
      levelOf activeGraceSecs idleThresholdSecs
        (numSeconds (now - ((activity past).getLast?).getD started))

/-- The changes of the level, with their instants. -/
def levelChanges (past : List Stimulus) : List (DateTime × StateTransition) :=
  History.answers (fun before stimulus =>
    let fromState := level started activeGraceSecs idleThresholdSecs before
    let toState := level started activeGraceSecs idleThresholdSecs (before ++ [stimulus])
    if fromState = toState then [] else [(stimulus.time, { fromState, toState })]) past

/-! ### The engine -/

/-- The engine behind a history. -/
def engineAfter (past : List Stimulus) : DefaultStateEngine :=
  { current := level started activeGraceSecs idleThresholdSecs past
    lastSignalTime := ((activity past).getLast?).getD started
    activeGraceSecs, idleThresholdSecs
    locked := isLocked past }

theorem engineAfter_nil :
    engineAfter started activeGraceSecs idleThresholdSecs [] = .new started activeGraceSecs idleThresholdSecs :=
  rfl

variable {started activeGraceSecs idleThresholdSecs}

theorem isLocked_concat (past : List Stimulus) (stimulus : Stimulus) :
    isLocked (past ++ [stimulus]) = stimulus.locks.getD (isLocked past) := by
  rw [isLocked, List.filterMap_append]
  cases hlocks : stimulus.locks with
  | none => simp [hlocks, isLocked]
  | some locked => simp [hlocks]

theorem activity_concat (past : List Stimulus) (stimulus : Stimulus) :
    activity (past ++ [stimulus]) =
      activity past ++ if stimulus.isActivity && !isLocked past then [stimulus.time] else [] :=
  History.answers_concat _ past stimulus

theorem looks_concat (past : List Stimulus) (stimulus : Stimulus) :
    looks (past ++ [stimulus]) =
      looks past ++
        if stimulus.isHint || (stimulus.locks = some false && !isLocked past) then [] else [stimulus.time] :=
  History.answers_concat _ past stimulus

variable (started activeGraceSecs idleThresholdSecs) in
theorem level_of_locked {past : List Stimulus} (h : isLocked past = true) :
    level started activeGraceSecs idleThresholdSecs past = .locked := if_pos h

/-- What the calls of the engine put out for a transition, at the instant of the call. -/
def moveTo (self : DefaultStateEngine) (time : DateTime) (next : ActivityState) :
    List (DateTime × StateTransition) :=
  if self.current = next then [] else [(time, { fromState := self.current, toState := next })]

theorem settle_eq (self : DefaultStateEngine) (time : DateTime) (next : ActivityState) :
    ((self.settle next).1, (self.settle next).2.toList.map (time, ·)) =
      ({ self with current := next }, moveTo self time next) := by
  unfold settle moveTo
  by_cases h : next = self.current
  · subst h
    simp
  · simp [h, Ne.symm h]

variable (started activeGraceSecs idleThresholdSecs) in
theorem compute_engineAfter (past : List Stimulus) {stimulus : Stimulus}
    (hlooks : looks (past ++ [stimulus]) = looks past ++ [stimulus.time]) :
    (engineAfter started activeGraceSecs idleThresholdSecs (past ++ [stimulus])).compute stimulus.time =
      level started activeGraceSecs idleThresholdSecs (past ++ [stimulus]) := by
  simp [compute, engineAfter, level, hlooks, levelOf]

theorem engineAfter_concat_of_silent {past : List Stimulus} {stimulus : Stimulus}
    (hlocked : isLocked (past ++ [stimulus]) = isLocked past)
    (hactivity : activity (past ++ [stimulus]) = activity past)
    (hlevel : isLocked past = true ∨ looks (past ++ [stimulus]) = looks past) :
    engineAfter started activeGraceSecs idleThresholdSecs (past ++ [stimulus]) =
      engineAfter started activeGraceSecs idleThresholdSecs past := by
  have hsame : level started activeGraceSecs idleThresholdSecs (past ++ [stimulus]) =
      level started activeGraceSecs idleThresholdSecs past := by
    rcases hlevel with h | h
    · rw [level_of_locked _ _ _ h, level_of_locked _ _ _ (hlocked.trans h)]
    · rw [level, level, hlocked, hactivity, h]
  rw [engineAfter, engineAfter, hsame, hactivity, hlocked]

variable (started activeGraceSecs idleThresholdSecs) in
theorem level_ne_locked {past : List Stimulus} (h : isLocked past = false) :
    level started activeGraceSecs idleThresholdSecs past ≠ .locked := by
  simp only [level, h, Bool.false_eq_true, if_false]
  split
  · exact nofun
  · unfold levelOf
    split_ifs <;> exact nofun

variable (started activeGraceSecs idleThresholdSecs) in
/-- A call answers with the change of the level, if there is one. -/
def AnswersLevel (past : List Stimulus) (stimulus : Stimulus) : Prop :=
  react (engineAfter started activeGraceSecs idleThresholdSecs past) stimulus =
    (engineAfter started activeGraceSecs idleThresholdSecs (past ++ [stimulus]),
      moveTo (engineAfter started activeGraceSecs idleThresholdSecs past) stimulus.time
        (level started activeGraceSecs idleThresholdSecs (past ++ [stimulus])))

theorem AnswersLevel.of_silent {past : List Stimulus} {stimulus : Stimulus}
    (hreact : react (engineAfter started activeGraceSecs idleThresholdSecs past) stimulus =
      (engineAfter started activeGraceSecs idleThresholdSecs past, []))
    (hlocked : isLocked (past ++ [stimulus]) = isLocked past)
    (hactivity : activity (past ++ [stimulus]) = activity past)
    (hlevel : isLocked past = true ∨ looks (past ++ [stimulus]) = looks past) :
    AnswersLevel started activeGraceSecs idleThresholdSecs past stimulus := by
  have hsame : engineAfter started activeGraceSecs idleThresholdSecs (past ++ [stimulus]) =
      engineAfter started activeGraceSecs idleThresholdSecs past :=
    engineAfter_concat_of_silent hlocked hactivity hlevel
  have hcurrent : level started activeGraceSecs idleThresholdSecs (past ++ [stimulus]) =
      (engineAfter started activeGraceSecs idleThresholdSecs past).current := congrArg (·.current) hsame
  rw [AnswersLevel, hreact, hsame, moveTo, if_pos hcurrent.symm]

theorem AnswersLevel.of_settle {past : List Stimulus} {stimulus : Stimulus} (lastSignalTime : DateTime)
    (hreact : react (engineAfter started activeGraceSecs idleThresholdSecs past) stimulus =
      let touched := { engineAfter started activeGraceSecs idleThresholdSecs past with lastSignalTime }
      ((touched.settle (touched.compute stimulus.time)).1,
        (touched.settle (touched.compute stimulus.time)).2.toList.map (stimulus.time, ·)))
    (hlocked : isLocked (past ++ [stimulus]) = isLocked past)
    (hactivity : ((activity (past ++ [stimulus])).getLast?).getD started = lastSignalTime)
    (hlooks : looks (past ++ [stimulus]) = looks past ++ [stimulus.time]) :
    AnswersLevel started activeGraceSecs idleThresholdSecs past stimulus := by
  have hnext : engineAfter started activeGraceSecs idleThresholdSecs (past ++ [stimulus]) =
      { engineAfter started activeGraceSecs idleThresholdSecs past with
        lastSignalTime
        current := level started activeGraceSecs idleThresholdSecs (past ++ [stimulus]) } := by
    rw [engineAfter, hactivity, hlocked, engineAfter]
  have hcompute := compute_engineAfter started activeGraceSecs idleThresholdSecs past hlooks
  rw [hnext] at hcompute
  rw [AnswersLevel, hreact, hnext]
  dsimp only
  rw [settle_eq]
  have htouched : { engineAfter started activeGraceSecs idleThresholdSecs past with
      lastSignalTime }.compute stimulus.time =
        level started activeGraceSecs idleThresholdSecs (past ++ [stimulus]) := hcompute
  rw [htouched]
  rfl

theorem follows_tick (past : List Stimulus) (now : DateTime) :
    AnswersLevel started activeGraceSecs idleThresholdSecs past (.tick now) := by
  have hlocks : isLocked (past ++ [.tick now]) = isLocked past := isLocked_concat past _
  have hactivity : activity (past ++ [.tick now]) = activity past :=
    (activity_concat past _).trans (List.append_nil _)
  by_cases hlocked : isLocked past = true
  · refine .of_silent ?_ hlocks hactivity (.inl hlocked)
    simp [react, onTick, engineAfter, hlocked]
  · refine .of_settle (((activity past).getLast?).getD started) ?_ hlocks ?_ ?_
    · simp [react, onTick, engineAfter, hlocked, Stimulus.time]
    · rw [hactivity]
    · simp [looks_concat, Stimulus.isHint, Stimulus.locks, Stimulus.time]

theorem follows_activity (past : List Stimulus) {env : EventEnvelope} {kind : SignalKind}
    (hkind : env.kind = .signal kind) (hstart : kind ≠ .lockStart) (hend : kind ≠ .lockEnd) :
    AnswersLevel started activeGraceSecs idleThresholdSecs past (.signal env) := by
  have hno : (Stimulus.signal env).locks = none := by
    cases kind <;> simp_all [Stimulus.locks]
  have hlocks : isLocked (past ++ [.signal env]) = isLocked past := by
    rw [isLocked_concat, hno]
    rfl
  have hyes : (Stimulus.signal env).isActivity = true := by
    cases kind <;> simp_all [Stimulus.isActivity]
  by_cases hlocked : isLocked past = true
  · refine .of_silent ?_ hlocks ?_ (.inl hlocked)
    · cases kind <;> simp_all [react, onSignal, engineAfter]
    · simp [activity_concat, hlocked]
  · refine .of_settle env.timestamp ?_ hlocks ?_ ?_
    · cases kind <;> simp_all [react, onSignal, engineAfter, Stimulus.time]
    · simp [activity_concat, hlocked, hyes, Stimulus.time]
    · simp [looks_concat, Stimulus.isHint, hkind, hno]

theorem follows_lockStart (past : List Stimulus) {env : EventEnvelope}
    (hkind : env.kind = .signal .lockStart) :
    AnswersLevel started activeGraceSecs idleThresholdSecs past (.signal env) := by
  have hlocks : isLocked (past ++ [.signal env]) = true := by
    simp [isLocked_concat, Stimulus.locks, hkind]
  have hactivity : activity (past ++ [.signal env]) = activity past := by
    simp [activity_concat, Stimulus.isActivity, hkind]
  by_cases hlocked : isLocked past = true
  · refine .of_silent ?_ (hlocks.trans hlocked.symm) hactivity (.inl hlocked)
    simp [react, onSignal, engineAfter, hkind, hlocked]
  · rw [Bool.not_eq_true] at hlocked
    have hlevel := level_of_locked started activeGraceSecs idleThresholdSecs hlocks
    have hne := level_ne_locked started activeGraceSecs idleThresholdSecs hlocked
    simp [AnswersLevel, react, onSignal, engineAfter, hkind, hlocked, hlocks, hactivity, hlevel, moveTo, hne,
      Stimulus.time]

theorem follows_lockEnd (past : List Stimulus) {env : EventEnvelope} (hkind : env.kind = .signal .lockEnd) :
    AnswersLevel started activeGraceSecs idleThresholdSecs past (.signal env) := by
  have hlocks : isLocked (past ++ [.signal env]) = false := by
    simp [isLocked_concat, Stimulus.locks, hkind]
  have hactivity : activity (past ++ [.signal env]) = activity past := by
    simp [activity_concat, Stimulus.isActivity, hkind]
  by_cases hlocked : isLocked past = true
  · have hlooks : looks (past ++ [.signal env]) = looks past ++ [env.timestamp] := by
      simp [looks_concat, Stimulus.isHint, Stimulus.locks, hkind, hlocked, Stimulus.time]
    have hcompute := compute_engineAfter started activeGraceSecs idleThresholdSecs past hlooks
    have hunlocked : { engineAfter started activeGraceSecs idleThresholdSecs past with
        locked := false }.compute env.timestamp =
          level started activeGraceSecs idleThresholdSecs (past ++ [.signal env]) := by
      rw [← hcompute]
      simp only [compute, engineAfter, hlocks, hactivity, Bool.false_eq_true, if_false]
      rfl
    have hlevel := level_of_locked started activeGraceSecs idleThresholdSecs hlocked
    have hne := level_ne_locked started activeGraceSecs idleThresholdSecs hlocks
    simp only [engineAfter, hlevel] at hunlocked
    simp [AnswersLevel, react, onSignal, engineAfter, hkind, hlocked, hlocks, hactivity, hlevel, hunlocked, moveTo,
      hne.symm, Stimulus.time]
  · rw [Bool.not_eq_true] at hlocked
    refine .of_silent ?_ (hlocks.trans hlocked.symm) hactivity (.inr ?_)
    · simp [react, onSignal, engineAfter, hkind, hlocked]
    · simp [looks_concat, Stimulus.locks, hkind, hlocked]

theorem follows_hint (past : List Stimulus) {env : EventEnvelope} {kind : HintKind}
    (hkind : env.kind = .hint kind) :
    AnswersLevel started activeGraceSecs idleThresholdSecs past (.signal env) := by
  refine .of_silent ?_ ?_ ?_ (.inr ?_)
  · simp [react, onSignal, hkind]
  · simp [isLocked_concat, Stimulus.locks, hkind]
  · simp [activity_concat, Stimulus.isActivity, hkind]
  · simp [looks_concat, Stimulus.isHint, hkind]

theorem follows (past : List Stimulus) (stimulus : Stimulus) :
    AnswersLevel started activeGraceSecs idleThresholdSecs past stimulus := by
  cases stimulus with
  | tick now => exact follows_tick past now
  | signal env =>
    cases hkind : env.kind with
    | signal kind =>
      by_cases hstart : kind = .lockStart
      · exact follows_lockStart past (hstart ▸ hkind)
      · by_cases hend : kind = .lockEnd
        · exact follows_lockEnd past (hend ▸ hkind)
        · exact follows_activity past hkind hstart hend
    | hint kind => exact follows_hint past hkind

variable (started activeGraceSecs idleThresholdSecs) in
/-- The engine is at the level of what it has been given, and the transitions that it returns are the changes
of the level on the way. -/
theorem engine_follows_level (stimuli : List Stimulus) :
    react.run (new started activeGraceSecs idleThresholdSecs) stimuli =
      (engineAfter started activeGraceSecs idleThresholdSecs stimuli,
        levelChanges started activeGraceSecs idleThresholdSecs stimuli) := by
  rw [← engineAfter_nil]
  exact History.run_history (fun past stimulus => follows past stimulus) stimuli

end

end ActivityLevel

end Kronical
