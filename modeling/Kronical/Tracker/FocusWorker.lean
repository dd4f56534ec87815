import Mathlib.Data.List.Infix
import Kronical.Lib.Machine
import Kronical.Tracker.Titles

/-!
# The focus worker

`run_focus_worker` turns the window system's messages and polls into focus events. It collects what it
learns about the focused app in `FocusState`; after an app change it waits for a title, which it holds
back (`pendingWindowTitle`) until the coalesce window is over, and emits the state as soon as the
scheduled instant has come and nothing is missing.

One `iteration` is one round of its loop: a message, a poll or a timeout is handled, then the coalesce
window and the scheduled emit are looked after, unless the handler skips that (`continue`) or ends the
loop. Everything the worker reads from outside is part of the iteration's `Input`. The clock and the
hash maps' orders are read at the places of the program: `clock n` belongs to the place `n`, and the
places are numbered in program order.
-/

namespace Kronical

structure FocusCacheCaps where
  pidCacheCapacity : Nat
  titleCacheCapacity : Nat
  titleCacheTtlSecs : Nat
  focusWindowCoalesceMs : Nat
  focusAllowZeroWindowId : Bool

/-- A small worker with a coalesce window of 100 ms, for examples. -/
def FocusCacheCaps.sample : FocusCacheCaps :=
  { pidCacheCapacity := 4, titleCacheCapacity := 4, titleCacheTtlSecs := 0,
    focusWindowCoalesceMs := 100, focusAllowZeroWindowId := true }

structure FocusState where
  appName : String
  pid : Int
  windowTitle : String
  windowId : Nat
  windowInstanceStart : DateTime
  processStartTime : Nat
  deriving DecidableEq

namespace FocusState

def new (now : DateTime) : FocusState :=
  { appName := "", pid := 0, windowTitle := "", windowId := 0, windowInstanceStart := now,
    processStartTime := 0 }

def isComplete (self : FocusState) : Bool :=
  self.appName ≠ "" ∧ self.windowTitle ≠ "" ∧ self.pid > 0 ∧ self.windowId > 0 ∧
    self.processStartTime > 0

/-- The closure `can_emit`. -/
def canEmit (caps : FocusCacheCaps) (self : FocusState) : Bool :=
  self.appName ≠ "" ∧ self.windowTitle ≠ "" ∧ self.pid > 0 ∧ self.processStartTime > 0 ∧
    (caps.focusAllowZeroWindowId ∨ self.windowId > 0)

def toWindowFocusInfo (self : FocusState) : WindowFocusInfo :=
  { pid := self.pid, processStartTime := self.processStartTime, appName := self.appName,
    windowTitle := self.windowTitle, windowId := self.windowId,
    windowInstanceStart := self.windowInstanceStart, windowPosition := none, windowSize := none }

end FocusState

/-- What the window system tells about the active window. -/
structure ActiveWindowInfo where
  title : String
  appName : String
  processId : Int
  windowId : Nat

inductive FocusMsg
  | appChange (pid : Int) (appName : String)
  | windowChange (windowTitle : String)
  | appChangeInfo (info : ActiveWindowInfo)
  | windowChangeInfo (info : ActiveWindowInfo)
  | stop

/-- What `recv_timeout` returns; after a timeout the active window is polled, and an error comes as its
debug text. -/
inductive Received
  | msg (m : FocusMsg)
  | timeout (poll : Except String ActiveWindowInfo)
  | disconnected

/-- What one iteration reads from outside: the stop flag, the poll interval, what the channel and the
window system return, the clocks, and the start times of the processes that run. -/
structure Input where
  shouldStop : Bool
  pollValue : Nat
  received : Received
  clock : Nat → Tick
  utc : Nat → DateTime
  process : Int → Option Nat

/-- An iteration that takes no time, so many milliseconds after the start, for examples. -/
def Input.sample (ms : Nat) (received : Received) : Input :=
  { shouldStop := false, pollValue := 2000, received, clock := fun _ => ⟨ms * 1000000, .ofEntries⟩,
    utc := fun _ => 1713780000 * 1000000000, process := fun _ => some 1713770000 }

structure FocusWorker where
  state : FocusState
  pidCache : LruCache Int Nat
  lastTitles : LruCache Nat String
  pollLockActive : Bool
  coalesceUntil : Option Instant
  pendingWindowTitle : Option String
  caches : TitleCaches
  lastAppBeforeChange : Option String
  awaitingPollReconcile : Bool
  reconcileActive : Bool
  scheduledEmitAt : Option Instant

/-- `Duration::from_millis`. -/
def fromMillis (ms : Nat) : Nat := ms * 1000000

/-- `Duration::from_secs`. -/
def fromSecs (secs : Nat) : Nat := secs * 1000000000

/-- The clock from a place of the program on. -/
def clockFrom (clock : Nat → Tick) (place : Nat) : Nat → Tick := fun n => clock (place + n)

/-- The id of a window of loginwindow that has none. -/
def substituteWindowId (appName : String) (windowId : Nat) : Nat :=
  if isLoginwindow appName ∧ windowId = 0 then loginwindowWindowId else windowId

/-- The start time of a process that was not found is the time by the clock, in milliseconds since 1970. -/
def startTimeOrNow (startTime : Nat) (now : DateTime) : Nat :=
  if startTime = 0 then asU64 (timestampMillis now) else startTime

/-- `format!("{:?}", e).contains("No qualifying window found")` -/
def isLockError (errText : String) : Bool :=
  decide ("No qualifying window found".toList <:+: errText.toList)

namespace FocusWorker

variable (caps : FocusCacheCaps)

def new (now : DateTime) : FocusWorker :=
  { state := .new now
    pidCache := .withCapacity caps.pidCacheCapacity
    lastTitles :=
      if caps.titleCacheTtlSecs > 0 then
        .withCapacityAndTtl caps.titleCacheCapacity (fromSecs caps.titleCacheTtlSecs)
      else .withCapacity caps.titleCacheCapacity
    pollLockActive := false
    coalesceUntil := none
    pendingWindowTitle := none
    caches := ⟨.withCapacity caps.titleCacheCapacity,
      .withCapacityAndTtl caps.titleCacheCapacity (fromSecs 2)⟩
    lastAppBeforeChange := none
    awaitingPollReconcile := false
    reconcileActive := false
    scheduledEmitAt := none }

/-! ### The closures -/

/-- Both arms of the closure's `match` store the new instant. -/
def scheduleEmit (self : FocusWorker) (delayMs : Nat) (tick : Tick) : FocusWorker :=
  { self with scheduledEmitAt := some (tick.now + fromMillis delayMs) }

/-- A start time from the cache, or else from the system, which is then cached. -/
def getProcessStartTime (self : FocusWorker) (pid : Int) (process : Int → Option Nat)
    (clock : Nat → Tick) : Nat × FocusWorker :=
  let cached := self.pidCache.getCloned pid (clock 0)
  match cached.1, process pid with
  | some startTime, _ => (startTime, { self with pidCache := cached.2 })
  | none, some startTime => (startTime, { self with pidCache := cached.2.put pid startTime (clock 1) })
  | none, none => (0, { self with pidCache := cached.2 })

/-- `record_weak_title` for the state's app. -/
def recordWeakTitle (self : FocusWorker) (title : String) (windowId : Nat) (tick : Tick) : FocusWorker :=
  { self with
    caches := { self.caches with
      weakAppWindow := self.caches.weakAppWindow.record self.state.appName title windowId tick } }

/-- `state.window_title = title` -/
def setTitle (self : FocusWorker) (title : String) : FocusWorker :=
  { self with state := { self.state with windowTitle := title } }

/-- `record_weak_title`, then `state.window_title = validate_title_with_weak`. -/
def takeTitle (self : FocusWorker) (title : String) (windowId : Nat) (clock : Nat → Tick) :
    FocusWorker :=
  let recorded := self.recordWeakTitle title windowId (clock 0)
  let answer := recorded.caches.validateTitleWithWeak self.state.appName title (clockFrom clock 1)
  setTitle { recorded with caches := answer.2 } answer.1

/-- `record_weak_title`, then `state.window_title = title`. -/
def acceptTitle (self : FocusWorker) (title : String) (tick : Tick) : FocusWorker :=
  (self.recordWeakTitle title self.state.windowId tick).setTitle title

/-- `reconcile_window_title` for the state's app. -/
def reconcile (self : FocusWorker) (pending : String) (clock : Nat → Tick) :
    TitleCaches.ReconcileDecision × FocusWorker :=
  let answer := self.caches.reconcileWindowTitle self.state.appName pending self.lastAppBeforeChange
    clock
  (answer.1, { self with caches := answer.2 })

/-- `state.window_id = windowId` -/
def setWindowId (self : FocusWorker) (windowId : Nat) : FocusWorker :=
  { self with state := { self.state with windowId } }

/-- The state's own window id is replaced if it is loginwindow's and zero. -/
def substituteOwnId (self : FocusWorker) : FocusWorker :=
  self.setWindowId (substituteWindowId self.state.appName self.state.windowId)

/-- `callback.on_focus_change`, then `record_last_app_window`. -/
def emit (self : FocusWorker) (tick : Tick) : FocusWorker × List WindowFocusInfo :=
  ({ self with
      caches := { self.caches with
        lastAppWindow := self.caches.lastAppWindow.record self.state.appName self.state.windowTitle
          self.state.windowId tick } },
    [self.state.toWindowFocusInfo])

/-- `emit_loginwindow_focus`. -/
def loginwindowFocus (now : DateTime) : WindowFocusInfo :=
  { pid := 0, processStartTime := asU64 (timestampMillis now), appName := "loginwindow",
    windowTitle := "Login", windowId := loginwindowWindowId, windowInstanceStart := now,
    windowPosition := none, windowSize := none }

/-! ### App changes -/

/-- How a handler ends: it falls through to the end of the iteration, skips that or ends the loop. -/
inductive Flow
  | proceed (worker : FocusWorker) (out : List WindowFocusInfo)
  | skip (worker : FocusWorker)
  | stop

/-- `pending_window_title.take()` -/
def takePending (self : FocusWorker) : FocusWorker := { self with pendingWindowTitle := none }

/-- The pending title becomes the state's, whatever is decided about it. -/
def flushTitle (self : FocusWorker) (clock : Nat → Tick) : FocusWorker :=
  match self.pendingWindowTitle with
  | some title =>
    let decided := self.takePending.reconcile title clock
    decided.2.setTitle decided.1.title
  | none => self

def emitIfPossible (self : FocusWorker) (tick : Tick) : FocusWorker × List WindowFocusInfo :=
  if self.state.canEmit caps then self.emit tick else (self, [])

/-- What is known about the app that is left is emitted. -/
def flush (self : FocusWorker) (clock : Nat → Tick) : FocusWorker × List WindowFocusInfo :=
  if self.pendingWindowTitle.isSome ∨ self.state.windowTitle ≠ "" then
    (self.flushTitle clock).substituteOwnId.emitIfPossible caps (clock 6)
  else (self, [])

def flushIfOpen (self : FocusWorker) (clock : Nat → Tick) : FocusWorker × List WindowFocusInfo :=
  if self.coalesceUntil.isSome then self.flush caps clock else (self, [])

/-- The app that is left is the state's, and is noted before the flush. -/
def noteLastApp (self : FocusWorker) : FocusWorker :=
  { self with
    lastAppBeforeChange := if self.state.appName ≠ "" then some self.state.appName else none }

/-- The coalesce window of an app change. -/
def openCoalescing (self : FocusWorker) (tick : Tick) : FocusWorker :=
  { self with
    coalesceUntil :=
      if caps.focusWindowCoalesceMs > 0 then some (tick.now + fromMillis caps.focusWindowCoalesceMs)
      else none
    pendingWindowTitle := none
    reconcileActive := true
    awaitingPollReconcile := true }

/-- An app other than loginwindow ends the lock. -/
def unlockFor (self : FocusWorker) (appName : String) : FocusWorker :=
  if isLoginwindow appName then self else { self with pollLockActive := false }

/-- The state is that of the new app, whose title is still to come. -/
def enterApp (self : FocusWorker) (pid : Int) (appName : String) (input : Input) : FocusWorker :=
  let opened := (self.unlockFor appName).openCoalescing caps (input.clock 7)
  let started := opened.getProcessStartTime pid input.process (clockFrom input.clock 8)
  let entered := { started.2 with
    state :=
      { appName, pid, windowTitle := "", windowId := substituteWindowId appName 0
        windowInstanceStart := input.utc 1
        processStartTime := startTimeOrNow started.1 (input.utc 0) } }
  entered.scheduleEmit (if isLoginwindow appName then 50 else 150) (input.clock 10)

def onAppChange (self : FocusWorker) (pid : Int) (appName : String) (input : Input) : Flow :=
  if self.state.appName = appName ∧ self.state.pid = pid then .proceed self []
  else
    let flushed := self.noteLastApp.flushIfOpen caps input.clock
    .proceed (flushed.1.enterApp caps pid appName input) flushed.2

/-! ### Window changes -/

/-- The title is held back. -/
def keepPending (self : FocusWorker) (title : String) (tick : Tick) : FocusWorker :=
  { self.recordWeakTitle title self.state.windowId tick with pendingWindowTitle := some title }

/-- `reconcile_active = false` -/
def stopReconciling (self : FocusWorker) : FocusWorker := { self with reconcileActive := false }

/-- The end of a window change that is not held back. -/
def settleWindowChange (self : FocusWorker) (tick : Tick) : FocusWorker :=
  if self.substituteOwnId.state.isComplete then
    (self.substituteOwnId.scheduleEmit 100 tick).stopReconciling
  else self.substituteOwnId

def followDecision (self : FocusWorker) (decision : TitleCaches.ReconcileDecision)
    (clock : Nat → Tick) : Flow :=
  match decision with
  | .accept title _ =>
    .proceed ((self.acceptTitle title (clock 8)).stopReconciling.settleWindowChange (clock 14)) []
  | .hold title =>
    if self.coalesceUntil.isNone then
      .proceed
        ((self.takeTitle title self.state.windowId (clockFrom clock 8)).stopReconciling.settleWindowChange
          (clock 14)) []
    else .skip (self.keepPending title (clock 8))

def onWindowChange (self : FocusWorker) (windowTitle : String) (clock : Nat → Tick) : Flow :=
  if windowTitle = "" ∨ self.state.windowTitle = windowTitle then .proceed self []
  else if self.reconcileActive then
    if self.coalesceUntil.any fun deadline => (clock 0).now < deadline then
      .skip (self.keepPending windowTitle (clock 1))
    else
      let decided := self.reconcile windowTitle (clockFrom clock 2)
      decided.2.followDecision decided.1 clock
  else
    .proceed
      ((self.takeTitle windowTitle self.state.windowId (clockFrom clock 8)).settleWindowChange
        (clock 14)) []

/-! ### Messages with the active window -/

/-- While a title is awaited, what comes in about another app is ignored. -/
def isForeign (self : FocusWorker) (info : ActiveWindowInfo) : Bool :=
  self.reconcileActive ∧ eqIgnoreAsciiCase self.state.appName info.appName = false ∧
    self.state.appName ≠ ""

/-- The app, the process and its start time are the info's. -/
def enterProcess (self : FocusWorker) (info : ActiveWindowInfo) (process : Int → Option Nat)
    (now : DateTime) (clock : Nat → Tick) : FocusWorker :=
  let started := self.getProcessStartTime info.processId process clock
  { started.2 with
    state := { self.state with
      appName := info.appName
      pid := info.processId
      processStartTime := startTimeOrNow started.1 now } }

/-- No poll and no title is awaited any more. -/
def endAwaiting (self : FocusWorker) : FocusWorker :=
  { self with awaitingPollReconcile := false, reconcileActive := false }

/-- The title and the window are the info's. -/
def enterWindow (self : FocusWorker) (info : ActiveWindowInfo) (clock : Nat → Tick) : FocusWorker :=
  ((self.takeTitle info.title info.windowId clock).setWindowId
    (substituteWindowId self.state.appName info.windowId)).endAwaiting

/-- `schedule_emit(0)` if nothing is missing. -/
def scheduleIfComplete (self : FocusWorker) (tick : Tick) : FocusWorker :=
  if self.state.isComplete then self.scheduleEmit 0 tick else self

/-- No title is pending any more. -/
def endCoalescing (self : FocusWorker) : FocusWorker :=
  { self with coalesceUntil := none, pendingWindowTitle := none }

/-- `window_instance_start = Utc::now()` -/
def restartWindow (self : FocusWorker) (now : DateTime) : FocusWorker :=
  { self with state := { self.state with windowInstanceStart := now } }

def onAppChangeInfo (self : FocusWorker) (info : ActiveWindowInfo) (input : Input) : Flow :=
  if self.isForeign info then .skip self
  else
    let entered := (self.endCoalescing.unlockFor info.appName).enterProcess info input.process
      (input.utc 0) input.clock
    let titled := (entered.enterWindow info (clockFrom input.clock 2)).restartWindow (input.utc 1)
    .proceed (titled.scheduleIfComplete (input.clock 7)) []

/-- The app stays if the process does. -/
def enterOtherProcess (self : FocusWorker) (info : ActiveWindowInfo) (input : Input) : FocusWorker :=
  if self.state.pid ≠ info.processId then
    (self.unlockFor info.appName).enterProcess info input.process (input.utc 0) input.clock
  else self

def onWindowChangeInfo (self : FocusWorker) (info : ActiveWindowInfo) (input : Input) : Flow :=
  if self.isForeign info then .skip self
  else
    let titled := (self.endCoalescing.enterOtherProcess info input).enterWindow info
      (clockFrom input.clock 2)
    .proceed (titled.scheduleIfComplete (input.clock 7)) []

/-! ### Polls -/

/-- The first poll after a lock ends it. Here the window id is taken over as it is. -/
def recover (self : FocusWorker) (info : ActiveWindowInfo) (input : Input) : FocusWorker :=
  if self.pollLockActive then
    let entered := self.enterProcess info input.process (input.utc 0) input.clock
    let titled := (entered.takeTitle info.title info.windowId (clockFrom input.clock 2)).setWindowId
      info.windowId
    let recovered := { (titled.restartWindow (input.utc 1)).endAwaiting.endCoalescing with
      pollLockActive := false }
    recovered.scheduleEmit 0 (input.clock 7)
  else self

/-- The poll that an app change waits for. -/
def reconcilePoll (self : FocusWorker) (info : ActiveWindowInfo) (input : Input) : FocusWorker :=
  if self.awaitingPollReconcile ∧ self.state.appName = info.appName then
    let entered := self.enterProcess info input.process (input.utc 2) (clockFrom input.clock 8)
    let titled := (entered.enterWindow info (clockFrom input.clock 10)).restartWindow (input.utc 3)
    titled.endCoalescing.scheduleEmit 0 (input.clock 15)
  else self

/-- The app whose title has changed, with whatever start time its process is found to have. -/
def enterTitleApp (self : FocusWorker) (info : ActiveWindowInfo) (input : Input) : FocusWorker :=
  if self.state.pid ≠ info.processId then
    let started := self.getProcessStartTime info.processId input.process (clockFrom input.clock 17)
    { started.2 with
      state := { self.state with
        pid := info.processId
        appName := info.appName
        processStartTime := started.1 } }
  else self

/-- The window has another title than at the last poll. -/
def followTitle (self : FocusWorker) (info : ActiveWindowInfo) (input : Input) : FocusWorker :=
  let titled := (self.enterTitleApp info input).takeTitle info.title info.windowId
    (clockFrom input.clock 19)
  (titled.setWindowId info.windowId).scheduleIfComplete (input.clock 24)

/-- Whether the title of the window is another than at its last poll, as the cache has it. -/
def titleChanged (self : FocusWorker) (info : ActiveWindowInfo) (tick : Tick) : Bool :=
  (self.lastTitles.getCloned info.windowId tick).1.any fun lastTitle => lastTitle ≠ info.title

def setLastTitles (self : FocusWorker) (lastTitles : LruCache Nat String) : FocusWorker :=
  { self with lastTitles }

def pollTitle (self : FocusWorker) (info : ActiveWindowInfo) (input : Input) : FocusWorker :=
  let looked := self.setLastTitles (self.lastTitles.getCloned info.windowId (input.clock 16)).2
  let followed :=
    if self.titleChanged info (input.clock 16) then looked.followTitle info input else looked
  followed.setLastTitles (followed.lastTitles.put info.windowId info.title (input.clock 25))

def onPoll (self : FocusWorker) (info : ActiveWindowInfo) (input : Input) : Flow :=
  if self.isForeign info then .skip self
  else .proceed (((self.recover info input).reconcilePoll info input).pollTitle info input) []

/-- The first error that looks like a lock is a lock if the app is loginwindow. -/
def onPollError (self : FocusWorker) (errText : String) (input : Input) : Flow :=
  if isLockError errText ∧ self.pollLockActive = false then
    .proceed { self with pollLockActive := true }
      (if isLoginwindow self.state.appName then [loginwindowFocus (input.utc 0)] else [])
  else .proceed self []

/-- Nothing has come in: the window system is polled, unless that is suspended. -/
def onTimeout (self : FocusWorker) (poll : Except String ActiveWindowInfo) (input : Input) : Flow :=
  if input.pollValue = 0 then .skip self
  else
    match poll with
    | .ok info => self.onPoll info input
    | .error errText => self.onPollError errText input

/-! ### The loop -/

/-- The arms of the `match` on what has been received. -/
def handle (self : FocusWorker) (input : Input) : Flow :=
  match input.received with
  | .msg (.appChange pid appName) => self.onAppChange caps pid appName input
  | .msg (.windowChange windowTitle) => self.onWindowChange windowTitle input.clock
  | .msg (.appChangeInfo info) => self.onAppChangeInfo info input
  | .msg (.windowChangeInfo info) => self.onWindowChangeInfo info input
  | .msg .stop => .stop
  | .timeout poll => self.onTimeout poll input
  | .disconnected => .stop

/-- The pending title becomes the state's if the reconciliation or the caches let it. -/
def applyDecision (self : FocusWorker) (decision : TitleCaches.ReconcileDecision)
    (clock : Nat → Tick) : FocusWorker :=
  match decision with
  | .accept title _ => self.acceptTitle title (clock 37)
  | .hold title => self.takeTitle title self.state.windowId (clockFrom clock 37)

def applyPending (self : FocusWorker) (clock : Nat → Tick) : FocusWorker :=
  match self.pendingWindowTitle with
  | some title =>
    let decided := self.takePending.reconcile title (clockFrom clock 31)
    { (decided.2.applyDecision decided.1 clock).substituteOwnId with awaitingPollReconcile := true }
  | none => self

/-- The coalesce window is over. -/
def closeCoalescing (self : FocusWorker) : FocusWorker :=
  { self with coalesceUntil := none, reconcileActive := false }

/-- `schedule_emit(0)` if the state can be emitted. -/
def scheduleIfPossible (self : FocusWorker) (tick : Tick) : FocusWorker :=
  if self.state.canEmit caps then self.scheduleEmit 0 tick else self

/-- What is to be done when the coalesce window is over. -/
def coalesce (self : FocusWorker) (clock : Nat → Tick) : FocusWorker :=
  if self.coalesceUntil.any fun deadline => deadline ≤ (clock 30).now then
    (self.applyPending clock).closeCoalescing.scheduleIfPossible caps (clock 42)
  else self

/-- The scheduled emit, once it is due. -/
def emitScheduled (self : FocusWorker) (clock : Nat → Tick) : FocusWorker × List WindowFocusInfo :=
  if self.scheduledEmitAt.any (fun due => due ≤ (clock 43).now) ∧ self.state.canEmit caps then
    ({ (self.emit (clock 44)).1 with scheduledEmitAt := none }, (self.emit (clock 44)).2)
  else (self, [])

/-- One round of the loop: the worker after it and the focus events put out, unless the loop ends. -/
def iteration (self : FocusWorker) (input : Input) : Option (FocusWorker × List WindowFocusInfo) :=
  if input.shouldStop then none
  else
    match self.handle caps input with
    | .proceed worker out =>
      let emitted := (worker.coalesce caps input.clock).emitScheduled caps input.clock
      some (emitted.1, out ++ emitted.2)
    | .skip worker => some (worker, [])
    | .stop => none

/-- The worker as a machine that takes the inputs of its iterations. -/
def machine : Machine FocusWorker Input where
  start worker := ∃ now, worker = new caps now
  step worker input := (worker.iteration caps input).map Prod.fst

/-! ### What stays -/

/-- A handler that emits nothing, and what holds of the worker after it. -/
def Flow.Quiet (P : FocusWorker → Prop) : Flow → Prop
  | .proceed worker out => P worker ∧ out = []
  | .skip worker => P worker
  | .stop => True

variable {caps} {w : FocusWorker}

section Arms

variable {input : Input}

theorem handle_appChange {pid : Int} {appName : String}
    (h : input.received = .msg (.appChange pid appName)) :
    w.handle caps input = w.onAppChange caps pid appName input := by
  unfold handle
  rw [h]

theorem handle_windowChange {title : String} (h : input.received = .msg (.windowChange title)) :
    w.handle caps input = w.onWindowChange title input.clock := by
  unfold handle
  rw [h]

theorem handle_appChangeInfo {info : ActiveWindowInfo}
    (h : input.received = .msg (.appChangeInfo info)) :
    w.handle caps input = w.onAppChangeInfo info input := by
  unfold handle
  rw [h]

theorem handle_windowChangeInfo {info : ActiveWindowInfo}
    (h : input.received = .msg (.windowChangeInfo info)) :
    w.handle caps input = w.onWindowChangeInfo info input := by
  unfold handle
  rw [h]

theorem handle_timeout {poll : Except String ActiveWindowInfo} (h : input.received = .timeout poll) :
    w.handle caps input = w.onTimeout poll input := by
  unfold handle
  rw [h]

theorem handle_stop (h : input.received = .msg .stop ∨ input.received = .disconnected) :
    w.handle caps input = .stop := by
  unfold handle
  rcases h with h | h <;> rw [h]

end Arms

theorem getProcessStartTime_snd (w : FocusWorker) (pid : Int) (process : Int → Option Nat)
    (clock : Nat → Tick) :
    ∃ pidCache, (w.getProcessStartTime pid process clock).2 = { w with pidCache } := by
  unfold getProcessStartTime
  dsimp only
  split <;> exact ⟨_, rfl⟩

@[simp] theorem getProcessStartTime_caches (pid : Int) (process : Int → Option Nat)
    (clock : Nat → Tick) : (w.getProcessStartTime pid process clock).2.caches = w.caches := by
  obtain ⟨pidCache, hcache⟩ := w.getProcessStartTime_snd pid process clock
  rw [hcache]

@[simp] theorem unlockFor_caches (appName : String) : (w.unlockFor appName).caches = w.caches := by
  unfold unlockFor
  split_ifs <;> rfl

@[simp] theorem enterApp_caches (pid : Int) (appName : String) (input : Input) :
    (w.enterApp caps pid appName input).caches = w.caches := by
  simp [enterApp, scheduleEmit, openCoalescing]

@[simp] theorem enterApp_windowTitle (pid : Int) (appName : String) (input : Input) :
    (w.enterApp caps pid appName input).state.windowTitle = "" := rfl

@[simp] theorem enterApp_pendingWindowTitle (pid : Int) (appName : String) (input : Input) :
    (w.enterApp caps pid appName input).pendingWindowTitle = none := by
  obtain ⟨pidCache, hstarted⟩ := ((w.unlockFor appName).openCoalescing caps
    (input.clock 7)).getProcessStartTime_snd pid input.process (clockFrom input.clock 8)
  unfold enterApp
  dsimp only
  rw [hstarted]
  rfl

@[simp] theorem enterProcess_caches (info : ActiveWindowInfo) (process : Int → Option Nat)
    (now : DateTime) (clock : Nat → Tick) :
    (w.enterProcess info process now clock).caches = w.caches := by
  simp [enterProcess]

@[simp] theorem enterOtherProcess_caches (info : ActiveWindowInfo) (input : Input) :
    (w.enterOtherProcess info input).caches = w.caches := by
  unfold enterOtherProcess
  split_ifs <;> simp

@[simp] theorem enterTitleApp_caches (info : ActiveWindowInfo) (input : Input) :
    (w.enterTitleApp info input).caches = w.caches := by
  unfold enterTitleApp
  split_ifs <;> simp

end FocusWorker

end Kronical
