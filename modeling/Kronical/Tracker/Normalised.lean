import Kronical.Tracker.Overdue

/-!
# The focus state stays normalised

An app that has the focus has a start time, and loginwindow has a window id. A start time that is not
found is replaced by the milliseconds since 1970 and a missing id by loginwindow's own, in every handler but
the polls: the first poll after a lock takes over the window id as it is, and so does a poll that finds
another title, with whatever start time the process has. `Careful` says when this does no harm.
-/

namespace Kronical

namespace FocusState

/-- The app of a state, if there is one, has a start time. -/
def Started (self : FocusState) : Prop := self.appName ≠ "" → 0 < self.processStartTime

/-- loginwindow has a window id. -/
def WindowKnown (self : FocusState) : Prop := isLoginwindow self.appName → self.windowId ≠ 0

def Normalised (self : FocusState) : Prop := self.Started ∧ self.WindowKnown

end FocusState

theorem substituteWindowId_ne_zero {appName : String} (h : isLoginwindow appName) (windowId : Nat) :
    substituteWindowId appName windowId ≠ 0 := by
  unfold substituteWindowId
  split_ifs with hzero
  · decide
  · exact fun hwindow => hzero ⟨h, hwindow⟩

namespace FocusWorker

variable {caps : FocusCacheCaps} {w : FocusWorker} {input : Input}

/-! ### The end of an iteration -/

/-- A title is pending and the coalesce window is over when the iteration ends. -/
def TitleDue (w : FocusWorker) (clock : Nat → Tick) : Prop :=
  w.pendingWindowTitle.isSome ∧ w.windowOver (clock 30).now

theorem takeTitle_state (title : String) (windowId : Nat) (clock : Nat → Tick) :
    ∃ windowTitle, (w.takeTitle title windowId clock).state = { w.state with windowTitle } := ⟨_, rfl⟩

theorem applyDecision_state (decision : TitleCaches.ReconcileDecision) (clock : Nat → Tick) :
    ∃ windowTitle, (w.applyDecision decision clock).state = { w.state with windowTitle } := by
  cases decision with
  | accept title source => exact ⟨title, rfl⟩
  | hold title => exact takeTitle_state _ _ _

theorem substituteOwnId_normalised (w : FocusWorker) :
    w.substituteOwnId.state.Normalised ↔ w.state.Started :=
  and_iff_left fun hlogin => substituteWindowId_ne_zero hlogin _

theorem applyPending_normalised (clock : Nat → Tick) :
    (w.applyPending clock).state.Normalised ↔
      w.state.Started ∧ (w.state.WindowKnown ∨ w.pendingWindowTitle.isSome) := by
  unfold applyPending
  cases hpending : w.pendingWindowTitle with
  | none => simp [FocusState.Normalised]
  | some title =>
    obtain ⟨windowTitle, hstate⟩ := (w.takePending.reconcile title
      (clockFrom clock 31)).2.applyDecision_state
        (w.takePending.reconcile title (clockFrom clock 31)).1 clock
    dsimp only
    rw [substituteOwnId_normalised, hstate]
    simp only [Option.isSome_some, or_true, and_true]
    rfl

theorem coalesce_normalised (clock : Nat → Tick) :
    (w.coalesce caps clock).state.Normalised ↔
      w.state.Started ∧ (w.state.WindowKnown ∨ w.TitleDue clock) := by
  unfold coalesce scheduleIfPossible
  by_cases hover : w.windowOver (clock 30).now
  · have happly := @applyPending_normalised w clock
    have hdue : w.TitleDue clock ↔ w.pendingWindowTitle.isSome := and_iff_left hover
    rw [if_pos (show w.coalesceUntil.any _ = true from hover), hdue, ← happly]
    split_ifs <;> rfl
  · have hdue : ¬ w.TitleDue clock := fun h => hover h.2
    rw [if_neg (show ¬ w.coalesceUntil.any _ = true from hover), or_iff_left hdue]
    rfl

theorem end_normalised (clock : Nat → Tick) :
    ((w.coalesce caps clock).emitScheduled caps clock).1.state.Normalised ↔
      w.state.Started ∧ (w.state.WindowKnown ∨ w.TitleDue clock) := by
  rw [← @coalesce_normalised caps]
  unfold emitScheduled
  split_ifs <;> rfl

/-! ### The condition -/

/-- The start time the worker finds for a process, zero if none. -/
def startTimeOf (w : FocusWorker) (pid : Int) (input : Input) (place : Nat) : Nat :=
  (w.getProcessStartTime pid input.process (clockFrom input.clock place)).1

/-- An app is only entered without a start time if it has no name. -/
def StartFound (appName : String) (startTime : Nat) : Prop := appName ≠ "" → 0 < startTime

/-- loginwindow is only entered with a window id. -/
def IdFound (appName : String) (windowId : Nat) : Prop := isLoginwindow appName → windowId ≠ 0

/-- What a poll must tell about the window it finds. -/
def CarefulPoll (w : FocusWorker) (info : ActiveWindowInfo) (input : Input) : Prop :=
  if w.pollLockActive then
    StartFound info.appName (startTimeOrNow (w.startTimeOf info.processId input 0) (input.utc 0)) ∧
      IdFound info.appName info.windowId
  else if w.awaitingPollReconcile ∧ w.state.appName = info.appName then
    StartFound info.appName (startTimeOrNow (w.startTimeOf info.processId input 8) (input.utc 2)) ∧
      (w.titleChanged info (input.clock 16) → IdFound info.appName info.windowId)
  else
    w.titleChanged info (input.clock 16) →
      if w.state.pid ≠ info.processId then
        StartFound info.appName (w.startTimeOf info.processId input 17) ∧
          (IdFound info.appName info.windowId ∨ w.TitleDue input.clock)
      else IdFound w.state.appName info.windowId ∨ w.TitleDue input.clock

/-- A process has a start time, or else the clock is not at the first millisecond of 1970; and a poll that
ends a lock or finds another title tells the window id of loginwindow and the start time of another process. -/
def Careful (w : FocusWorker) (input : Input) : Prop :=
  input.shouldStop = false →
    match input.received with
    | .msg (.appChange pid appName) =>
      ¬ (w.state.appName = appName ∧ w.state.pid = pid) →
        StartFound appName (startTimeOrNow (w.startTimeOf pid input 8) (input.utc 0))
    | .msg (.appChangeInfo info) =>
      ¬ w.isForeign info →
        StartFound info.appName (startTimeOrNow (w.startTimeOf info.processId input 0) (input.utc 0))
    | .msg (.windowChangeInfo info) =>
      ¬ w.isForeign info → w.state.pid ≠ info.processId →
        StartFound info.appName (startTimeOrNow (w.startTimeOf info.processId input 0) (input.utc 0))
    | .timeout (.ok info) => input.pollValue ≠ 0 → ¬ w.isForeign info → w.CarefulPoll info input
    | _ => True

/-! ### The handlers -/

/-- The state is normalised at the end of the iteration. -/
def EndsWell (v : FocusWorker) (clock : Nat → Tick) : Prop :=
  v.state.Started ∧ (v.state.WindowKnown ∨ v.TitleDue clock)

/-- How a handler leaves the state: the end of the iteration may be still to come. -/
def EndsNormalised (clock : Nat → Tick) : Flow → Prop
  | .proceed v _ => v.EndsWell clock
  | .skip v => v.state.Normalised
  | .stop => True

theorem iteration_normalised_iff (hrun : input.shouldStop = false) :
    (∀ r, w.iteration caps input = some r → r.1.state.Normalised) ↔
      EndsNormalised input.clock (w.handle caps input) := by
  unfold iteration
  rw [hrun]
  cases w.handle caps input with
  | proceed v out =>
    simp only [Bool.false_eq_true, if_false, Option.some.injEq, forall_eq']
    exact end_normalised input.clock
  | skip v => simp [EndsNormalised]
  | stop => simp [EndsNormalised]

theorem getProcessStartTime_fst {v : FocusWorker} (h : v.pidCache = w.pidCache) (pid : Int)
    (process : Int → Option Nat) (clock : Nat → Tick) :
    (v.getProcessStartTime pid process clock).1 = (w.getProcessStartTime pid process clock).1 := by
  simp only [getProcessStartTime, h]
  split <;> rfl

theorem unlockFor_pidCache (appName : String) : (w.unlockFor appName).pidCache = w.pidCache := by
  unfold unlockFor
  split_ifs <;> rfl

theorem flushIfOpen_pidCache (clock : Nat → Tick) :
    (w.flushIfOpen caps clock).1.pidCache = w.pidCache := by
  have htitle : (w.flushTitle clock).pidCache = w.pidCache := by
    unfold flushTitle
    split <;> rfl
  unfold flushIfOpen flush emitIfPossible
  split_ifs
  · exact htitle
  · exact htitle
  · rfl
  · rfl

theorem onAppChange_normalised (hw : w.state.Normalised) (pid : Int) (appName : String) :
    EndsNormalised input.clock (w.onAppChange caps pid appName input) ↔
      (¬ (w.state.appName = appName ∧ w.state.pid = pid) →
        StartFound appName (startTimeOrNow (w.startTimeOf pid input 8) (input.utc 0))) := by
  unfold onAppChange
  split_ifs with hsame
  · exact iff_of_true ⟨hw.1, .inl hw.2⟩ fun h => absurd hsame h
  · have hcache : (((w.noteLastApp.flushIfOpen caps input.clock).1.unlockFor appName).openCoalescing caps
        (input.clock 7)).pidCache = w.pidCache :=
      (unlockFor_pidCache appName).trans (flushIfOpen_pidCache input.clock)
    have hstart := getProcessStartTime_fst hcache pid input.process (clockFrom input.clock 8)
    have hstarted : FocusState.Started
        ((w.noteLastApp.flushIfOpen caps input.clock).1.enterApp caps pid appName input).state ↔
          StartFound appName (startTimeOrNow (w.startTimeOf pid input 8) (input.utc 0)) := by
      unfold startTimeOf
      rw [← hstart]
      rfl
    refine ⟨fun h _ => hstarted.mp h.1, fun h => ⟨hstarted.mpr (h hsame), .inl ?_⟩⟩
    exact fun hlogin => substituteWindowId_ne_zero hlogin 0

theorem settleWindowChange_normalised (h : w.state.Started) (tick : Tick) :
    (w.settleWindowChange tick).state.Normalised := by
  unfold settleWindowChange
  split_ifs <;> exact ⟨h, fun hlogin => substituteWindowId_ne_zero hlogin _⟩

theorem followDecision_normalised (hw : w.state.Normalised)
    (decision : TitleCaches.ReconcileDecision) (clock : Nat → Tick) :
    EndsNormalised clock (w.followDecision decision clock) := by
  have hsettle {v : FocusWorker} (hv : v.state.Started) :
      EndsNormalised clock (.proceed (v.settleWindowChange (clock 14)) []) := by
    obtain ⟨hstarted, hknown⟩ := settleWindowChange_normalised hv (clock 14)
    exact ⟨hstarted, .inl hknown⟩
  unfold followDecision
  cases decision with
  | accept title source => exact hsettle hw.1
  | hold title =>
    dsimp only
    split_ifs
    · exact hsettle hw.1
    · exact hw

theorem onWindowChange_normalised (hw : w.state.Normalised) (title : String) (clock : Nat → Tick) :
    EndsNormalised clock (w.onWindowChange title clock) := by
  unfold onWindowChange
  split_ifs
  · exact ⟨hw.1, .inl hw.2⟩
  · exact hw
  · exact @followDecision_normalised (w.reconcile title (clockFrom clock 2)).2 hw _ clock
  · obtain ⟨hstarted, hknown⟩ := @settleWindowChange_normalised
      (w.takeTitle title w.state.windowId (clockFrom clock 8)) hw.1 (clock 14)
    exact ⟨hstarted, .inl hknown⟩

theorem scheduleIfComplete_endsWell (tick : Tick) (clock : Nat → Tick) :
    (w.scheduleIfComplete tick).EndsWell clock ↔ w.EndsWell clock := by
  unfold scheduleIfComplete
  split_ifs <;> rfl

theorem enterWindow_windowKnown (w : FocusWorker) (info : ActiveWindowInfo) (clock : Nat → Tick) :
    (w.enterWindow info clock).state.WindowKnown :=
  fun hlogin => substituteWindowId_ne_zero hlogin _

theorem scheduled_endsWell (hknown : w.state.WindowKnown) (tick : Tick) (clock : Nat → Tick) :
    (w.scheduleIfComplete tick).EndsWell clock ↔ w.state.Started := by
  rw [scheduleIfComplete_endsWell]
  exact and_iff_left (.inl hknown)

theorem clockFrom_zero (clock : Nat → Tick) : clockFrom clock 0 = clock := by
  funext n
  simp [clockFrom]

theorem enterProcess_started {v : FocusWorker} (hcache : v.pidCache = w.pidCache)
    (info : ActiveWindowInfo) (now : DateTime) (place : Nat) :
    (v.enterProcess info input.process now (clockFrom input.clock place)).state.Started ↔
      StartFound info.appName (startTimeOrNow (w.startTimeOf info.processId input place) now) := by
  unfold startTimeOf
  rw [← getProcessStartTime_fst hcache]
  rfl

theorem onAppChangeInfo_normalised (hw : w.state.Normalised) (info : ActiveWindowInfo) :
    EndsNormalised input.clock (w.onAppChangeInfo info input) ↔
      (¬ w.isForeign info →
        StartFound info.appName
          (startTimeOrNow (w.startTimeOf info.processId input 0) (input.utc 0))) := by
  unfold onAppChangeInfo
  split_ifs with hforeign
  · exact iff_of_true hw fun h => absurd hforeign h
  · have hstarted := @enterProcess_started w input (w.endCoalescing.unlockFor info.appName)
      (unlockFor_pidCache _) info (input.utc 0) 0
    rw [clockFrom_zero] at hstarted
    rw [← hstarted, forall_prop_of_true hforeign]
    generalize FocusWorker.enterProcess _ info _ _ _ = entered
    refine scheduled_endsWell (w := restartWindow _ _) ?_ _ _
    exact entered.enterWindow_windowKnown info _

theorem onWindowChangeInfo_normalised (hw : w.state.Normalised) (info : ActiveWindowInfo) :
    EndsNormalised input.clock (w.onWindowChangeInfo info input) ↔
      (¬ w.isForeign info → w.state.pid ≠ info.processId →
        StartFound info.appName
          (startTimeOrNow (w.startTimeOf info.processId input 0) (input.utc 0))) := by
  unfold onWindowChangeInfo
  split_ifs with hforeign
  · exact iff_of_true hw fun h => absurd hforeign h
  · have hentered : (w.endCoalescing.enterOtherProcess info input).state.Started ↔
        (w.state.pid ≠ info.processId → StartFound info.appName
          (startTimeOrNow (w.startTimeOf info.processId input 0) (input.utc 0))) := by
      unfold enterOtherProcess
      split_ifs with hpid
      · have hstarted := @enterProcess_started w input (w.endCoalescing.unlockFor info.appName)
          (unlockFor_pidCache _) info (input.utc 0) 0
        rw [clockFrom_zero] at hstarted
        exact hstarted.trans ⟨fun h _ => h, fun h => h hpid⟩
      · exact iff_of_true hw.1 fun h => absurd h hpid
    rw [← hentered, forall_prop_of_true hforeign]
    generalize w.endCoalescing.enterOtherProcess info input = entered
    exact scheduled_endsWell (entered.enterWindow_windowKnown info _) _ _

/-! ### Polls -/

theorem titleChanged_congr {v : FocusWorker} (h : v.lastTitles = w.lastTitles) (info : ActiveWindowInfo)
    (tick : Tick) : v.titleChanged info tick = w.titleChanged info tick := by
  unfold titleChanged
  rw [h]

theorem followTitle_endsWell (info : ActiveWindowInfo) :
    (w.followTitle info input).EndsWell input.clock ↔
      if w.state.pid ≠ info.processId then
        StartFound info.appName (w.startTimeOf info.processId input 17) ∧
          (IdFound info.appName info.windowId ∨ w.TitleDue input.clock)
      else w.state.Started ∧ (IdFound w.state.appName info.windowId ∨ w.TitleDue input.clock) := by
  have hfollow : (w.followTitle info input).EndsWell input.clock ↔
      (w.enterTitleApp info input).state.Started ∧
        (IdFound (w.enterTitleApp info input).state.appName info.windowId ∨
          (w.enterTitleApp info input).TitleDue input.clock) :=
    scheduleIfComplete_endsWell (input.clock 24) input.clock
  rw [hfollow]
  unfold enterTitleApp
  dsimp only
  split_ifs with hpid
  · obtain ⟨pidCache, hstarted⟩ := w.getProcessStartTime_snd info.processId input.process
      (clockFrom input.clock 17)
    have hdue : TitleDue { (w.getProcessStartTime info.processId input.process
        (clockFrom input.clock 17)).2 with
          state := { w.state with
            pid := info.processId
            appName := info.appName
            processStartTime := w.startTimeOf info.processId input 17 } } input.clock ↔
        w.TitleDue input.clock := by
      rw [hstarted]
      rfl
    exact and_congr Iff.rfl (or_congr Iff.rfl hdue)
  · rfl

theorem pollTitle_endsWell (info : ActiveWindowInfo) :
    (w.pollTitle info input).EndsWell input.clock ↔
      if w.titleChanged info (input.clock 16) then
        (w.followTitle info input).EndsWell input.clock
      else w.EndsWell input.clock := by
  unfold pollTitle
  dsimp only
  split_ifs
  · have hstart := getProcessStartTime_fst
      (show (w.setLastTitles (w.lastTitles.getCloned info.windowId (input.clock 16)).2).pidCache =
        w.pidCache from rfl) info.processId input.process (clockFrom input.clock 17)
    show EndsWell ((w.setLastTitles _).followTitle info input) _ ↔ _
    rw [followTitle_endsWell, followTitle_endsWell]
    unfold startTimeOf
    rw [hstart]
    rfl
  · rfl

theorem pollTitle_entered (info : ActiveWindowInfo) (hpid : w.state.pid = info.processId)
    (hpending : w.pendingWindowTitle = none) :
    (w.pollTitle info input).EndsWell input.clock ↔
      w.state.Started ∧ if w.titleChanged info (input.clock 16) then
        IdFound w.state.appName info.windowId else w.state.WindowKnown := by
  have hdue : ¬ w.TitleDue input.clock := by
    unfold TitleDue
    rw [hpending]
    exact fun h => nomatch h.1
  rw [pollTitle_endsWell, followTitle_endsWell, if_neg (not_not.mpr hpid), or_iff_left hdue]
  unfold EndsWell
  rw [or_iff_left hdue]
  split_ifs <;> rfl

theorem enterProcess_lastTitles (info : ActiveWindowInfo) (process : Int → Option Nat) (now : DateTime)
    (clock : Nat → Tick) : (w.enterProcess info process now clock).lastTitles = w.lastTitles := by
  obtain ⟨pidCache, hstarted⟩ := w.getProcessStartTime_snd info.processId process clock
  unfold enterProcess
  dsimp only
  rw [hstarted]

theorem poll_after_lock (info : ActiveWindowInfo) (hlock : w.pollLockActive) :
    (((w.recover info input).reconcilePoll info input).pollTitle info input).EndsWell input.clock ↔
      StartFound info.appName (startTimeOrNow (w.startTimeOf info.processId input 0) (input.utc 0)) ∧
        IdFound info.appName info.windowId := by
  have hstarted := @enterProcess_started w input w rfl info (input.utc 0) 0
  rw [clockFrom_zero] at hstarted
  have hreconciled : (w.recover info input).reconcilePoll info input = w.recover info input := by
    refine if_neg fun h => ?_
    unfold recover at h
    rw [if_pos hlock] at h
    nomatch h.1
  have hentered := @pollTitle_entered (w.recover info input) input info
  rw [hreconciled]
  unfold recover at hentered ⊢
  rw [if_pos hlock] at hentered ⊢
  rw [hentered rfl rfl, ← hstarted]
  refine and_congr Iff.rfl ?_
  split_ifs <;> rfl

theorem poll_awaited (info : ActiveWindowInfo) (hlock : ¬ w.pollLockActive)
    (hawaited : w.awaitingPollReconcile ∧ w.state.appName = info.appName) :
    (((w.recover info input).reconcilePoll info input).pollTitle info input).EndsWell input.clock ↔
      StartFound info.appName (startTimeOrNow (w.startTimeOf info.processId input 8) (input.utc 2)) ∧
        (w.titleChanged info (input.clock 16) → IdFound info.appName info.windowId) := by
  have hstarted := @enterProcess_started w input w rfl info (input.utc 2) 8
  have htitles : (w.reconcilePoll info input).lastTitles = w.lastTitles := by
    unfold reconcilePoll
    rw [if_pos hawaited]
    exact enterProcess_lastTitles info input.process (input.utc 2) (clockFrom input.clock 8)
  have hchanged := titleChanged_congr htitles info (input.clock 16)
  have hentered := @pollTitle_entered (w.reconcilePoll info input) input info
  rw [hchanged] at hentered
  rw [show w.recover info input = w from if_neg hlock]
  unfold reconcilePoll at hentered ⊢
  rw [if_pos hawaited] at hentered ⊢
  rw [hentered rfl rfl, ← hstarted]
  refine and_congr Iff.rfl ?_
  split_ifs with hchange
  · exact ⟨fun h _ => h, fun h => h hchange⟩
  · exact iff_of_true (fun hlogin => substituteWindowId_ne_zero hlogin _) fun h => absurd h hchange

theorem onPoll_normalised (hw : w.state.Normalised) (info : ActiveWindowInfo) :
    EndsNormalised input.clock (w.onPoll info input) ↔
      (¬ w.isForeign info → w.CarefulPoll info input) := by
  unfold onPoll
  split_ifs with hforeign
  · exact iff_of_true hw fun h => absurd hforeign h
  · refine Iff.trans ?_ (forall_prop_of_true hforeign).symm
    unfold CarefulPoll
    show EndsWell _ _ ↔ _
    split_ifs with hlock hawaited hpid
    · exact poll_after_lock info hlock
    · exact poll_awaited info hlock hawaited
    all_goals
      rw [show w.recover info input = w from if_neg hlock,
        show w.reconcilePoll info input = w from if_neg hawaited, pollTitle_endsWell,
        followTitle_endsWell]
    · rw [if_pos hpid]
      split_ifs with hchanged
      · exact ⟨fun h _ => h, fun h => h hchanged⟩
      · exact iff_of_true ⟨hw.1, .inl hw.2⟩ fun h => absurd h hchanged
    · rw [if_neg hpid]
      split_ifs with hchanged
      · exact ⟨fun h _ => h.2, fun h => ⟨hw.1, h hchanged⟩⟩
      · exact iff_of_true ⟨hw.1, .inl hw.2⟩ fun h => absurd h hchanged

theorem onPollError_normalised (hw : w.state.Normalised) (errText : String) :
    EndsNormalised input.clock (w.onPollError errText input) := by
  unfold onPollError
  split_ifs <;> exact ⟨hw.1, .inl hw.2⟩

/-! ### Runs -/

theorem normalised_iff_careful (hw : w.state.Normalised) (input : Input) :
    (∀ r, w.iteration caps input = some r → r.1.state.Normalised) ↔ w.Careful input := by
  unfold Careful
  cases hrun : input.shouldStop with
  | true =>
    refine iff_of_true (fun r hr => ?_) nofun
    unfold iteration at hr
    rw [hrun] at hr
    nomatch hr
  | false =>
    rw [iteration_normalised_iff hrun]
    simp only [forall_const]
    split
    · rename_i pid appName hinput
      rw [handle_appChange hinput]
      exact onAppChange_normalised hw pid appName
    · rename_i info hinput
      rw [handle_appChangeInfo hinput]
      exact onAppChangeInfo_normalised hw info
    · rename_i info hinput
      rw [handle_windowChangeInfo hinput]
      exact onWindowChangeInfo_normalised hw info
    · rename_i info hinput
      rw [handle_timeout hinput]
      unfold onTimeout
      split_ifs with hsuspended
      · exact iff_of_true hw fun h => absurd hsuspended h
      · have hpoll := @onPoll_normalised w input hw info
        exact ⟨fun h _ => hpoll.mp h, fun h => hpoll.mpr (h hsuspended)⟩
    · rename_i happ hinfo hwindowInfo hpoll
      refine iff_of_true ?_ trivial
      cases hinput : input.received with
      | msg m =>
        cases m with
        | appChange pid appName => exact absurd hinput (happ pid appName)
        | windowChange title =>
          rw [handle_windowChange hinput]
          exact onWindowChange_normalised hw title input.clock
        | appChangeInfo info => exact absurd hinput (hinfo info)
        | windowChangeInfo info => exact absurd hinput (hwindowInfo info)
        | stop =>
          rw [handle_stop (.inl hinput)]
          trivial
      | timeout poll =>
        cases poll with
        | ok info => exact absurd hinput (hpoll info)
        | error errText =>
          rw [handle_timeout hinput]
          unfold onTimeout
          split_ifs
          · exact hw
          · exact onPollError_normalised hw errText
      | disconnected =>
        rw [handle_stop (.inr hinput)]
        trivial

theorem new_normalised (now : DateTime) : (new caps now).state.Normalised :=
  ⟨fun h => absurd rfl h, fun h => nomatch (show isLoginwindow "" = false by decide) ▸ h⟩

/-- The states of a run are all normalised just if each of its iterations is careful. -/
theorem stays_normalised_iff (caps : FocusCacheCaps) (now : DateTime) (inputs : List Input) :
    (machine caps).Along
        (fun w input => ∀ r, w.iteration caps input = some r →
          (r.1.state.appName ≠ "" → 0 < r.1.state.processStartTime) ∧
            (isLoginwindow r.1.state.appName → r.1.state.windowId ≠ 0))
        (new caps now) inputs ↔
      (machine caps).Along Careful (new caps now) inputs := by
  refine Machine.along_congr (I := fun w => w.state.Normalised)
    (fun w input hw => normalised_iff_careful hw input) ?_ (new_normalised now) inputs
  intro w input t hnormalised hstep
  obtain ⟨r, hr, rfl⟩ := Option.map_eq_some_iff.mp hstep
  exact hnormalised r hr

/-- loginwindow gets the focus, and two polls find its window without an id, under two titles. -/
theorem poll_zeroes_window_id :
    ∃ w, (machine .sample).exec (new .sample 0)
        [.sample 0 (.msg (.appChange 1 "loginwindow")),
          .sample 2000 (.timeout (.ok ⟨"Login", "loginwindow", 1, 0⟩)),
          .sample 4000 (.timeout (.ok ⟨"Password", "loginwindow", 1, 0⟩))] = some w ∧
      isLoginwindow w.state.appName ∧ w.state.windowId = 0 := by
  have hrun : ((machine .sample).exec (new .sample 0)
      [.sample 0 (.msg (.appChange 1 "loginwindow")),
        .sample 2000 (.timeout (.ok ⟨"Login", "loginwindow", 1, 0⟩)),
        .sample 4000 (.timeout (.ok ⟨"Password", "loginwindow", 1, 0⟩))]).map (fun w =>
          (isLoginwindow w.state.appName, w.state.windowId)) = some (true, 0) := by
    decide
  obtain ⟨w, hw, hstate⟩ := Option.map_eq_some_iff.mp hrun
  exact ⟨w, hw, (Prod.mk.inj hstate).1, (Prod.mk.inj hstate).2⟩

end FocusWorker

end Kronical
