import Kronical.Core.Text
import Kronical.Server.SnapshotJson

/-!
# The snapshot over gRPC

The gRPC server maps the snapshot to a message and the client maps the message back. The message has no
field for the recent transitions nor for the signal behind a transition, and it has the empty text where
an optional text is absent, so the client does not always get the snapshot that it gets over HTTP
(`grpc_eq_http_iff`).
-/

namespace Kronical

/-! ### The messages -/

namespace Pb

structure Timestamp where
  seconds : Int
  nanos : Int
  deriving DecidableEq, Repr

structure Position where
  x : Int
  y : Int
  deriving DecidableEq, Repr

structure Size where
  width : Nat
  height : Nat
  deriving DecidableEq, Repr

structure Focus where
  appName : String
  pid : Int
  windowId : String
  windowTitle : String
  windowInstanceStart : Option Timestamp
  processStartTime : Nat
  windowPosition : Option Position
  windowSize : Option Size
  deriving DecidableEq, Repr

structure Transition where
  fromState : Int
  toState : Int
  atTime : Option Timestamp
  runId : String
  deriving DecidableEq, Repr

structure Counts where
  signalsSeen : U64
  hintsSeen : U64
  recordsEmitted : U64
  deriving DecidableEq, Repr

structure Cadence where
  currentMs : Nat
  reason : String
  deriving DecidableEq, Repr

structure Storage where
  backlogCount : Nat
  lastFlush : Option Timestamp
  deriving DecidableEq, Repr

structure Config where
  activeGraceSecs : Nat
  idleThresholdSecs : Nat
  retentionMinutes : Nat
  ephemeralMaxDurationSecs : Nat
  ephemeralMinDistinctIds : Nat
  ephemeralAppMaxDurationSecs : Nat
  ephemeralAppMinDistinctProcs : Nat
  deriving DecidableEq, Repr

structure SnapshotWindow where
  windowId : String
  windowTitle : String
  firstSeen : Option Timestamp
  lastSeen : Option Timestamp
  durationSeconds : Nat
  isGroup : Bool
  deriving DecidableEq, Repr

structure SnapshotApp where
  appName : String
  pid : Int
  processStartTime : Nat
  windows : List SnapshotWindow
  totalDurationSecs : Nat
  totalDurationPretty : String
  deriving DecidableEq, Repr

structure ActivityRecord where
  recordId : Nat
  runId : String
  startTime : Option Timestamp
  endTime : Option Timestamp
  state : Int
  focus : Option Focus
  eventCount : Nat
  triggeringEvents : List Nat
  deriving DecidableEq, Repr

structure SnapshotReply where
  seq : Nat
  monoNs : Nat
  runId : String
  activityState : Int
  focus : Option Focus
  lastTransition : Option Transition
  counts : Option Counts
  cadence : Option Cadence
  nextTimeout : Option Timestamp
  storage : Option Storage
  config : Option Config
  health : List String
  aggregatedApps : List SnapshotApp
  records : List ActivityRecord
  deriving DecidableEq, Repr

end Pb

/-! ### The server -/

/-- `as u32` on a wider number. -/
def asU32 (n : Int) : Nat := (n % 2 ^ 32).toNat

def utcToTs (t : DateTime) : Pb.Timestamp :=
  { seconds := t / 1000000000, nanos := t % 1000000000 }

def mapState : ActivityState → Int
  | .active => 1
  | .passive => 2
  | .inactive => 3
  | .locked => 4

def mapFocus (f : WindowFocusInfo) : Pb.Focus :=
  { appName := f.appName
    pid := f.pid
    windowId := toString f.windowId
    windowTitle := f.windowTitle
    windowInstanceStart := some (utcToTs f.windowInstanceStart)
    processStartTime := f.processStartTime
    windowPosition := f.windowPosition.map fun p => { x := p.x, y := p.y }
    windowSize := f.windowSize.map fun size => { width := size.1, height := size.2 } }

def mapTransition (t : Transition) : Pb.Transition :=
  { fromState := mapState t.fromState
    toState := mapState t.toState
    atTime := some (utcToTs t.atTime)
    runId := t.runId.getD "" }

def mapWindow (w : SnapshotWindow) : Pb.SnapshotWindow :=
  { windowId := w.windowId
    windowTitle := w.windowTitle
    firstSeen := some (utcToTs w.firstSeen)
    lastSeen := some (utcToTs w.lastSeen)
    durationSeconds := w.durationSeconds
    isGroup := w.isGroup }

def mapApp (a : SnapshotApp) : Pb.SnapshotApp :=
  { appName := a.appName
    pid := a.pid
    processStartTime := a.processStartTime
    windows := a.windows.map mapWindow
    totalDurationSecs := a.totalDurationSecs
    totalDurationPretty := a.totalDurationPretty }

def mapRecord (r : ActivityRecord) : Pb.ActivityRecord :=
  { recordId := r.recordId
    runId := r.runId.getD ""
    startTime := some (utcToTs r.startTime)
    endTime := r.endTime.map utcToTs
    state := mapState r.state
    focus := r.focusInfo.map mapFocus
    eventCount := r.eventCount
    triggeringEvents := r.triggeringEvents }

def mapConfig (c : ConfigSummary) : Pb.Config :=
  { activeGraceSecs := c.activeGraceSecs
    idleThresholdSecs := c.idleThresholdSecs
    retentionMinutes := c.retentionMinutes
    ephemeralMaxDurationSecs := c.ephemeralMaxDurationSecs
    ephemeralMinDistinctIds := asU32 c.ephemeralMinDistinctIds
    ephemeralAppMaxDurationSecs := c.ephemeralAppMaxDurationSecs
    ephemeralAppMinDistinctProcs := asU32 c.ephemeralAppMinDistinctProcs }

def toPb (s : ServedSnapshot) : Pb.SnapshotReply :=
  { seq := s.seq
    monoNs := s.monoNs
    runId := s.runId.getD ""
    activityState := mapState s.activityState
    focus := s.focus.map mapFocus
    lastTransition := s.lastTransition.map mapTransition
    counts := some
      { signalsSeen := s.counts.signalsSeen
        hintsSeen := s.counts.hintsSeen
        recordsEmitted := s.counts.recordsEmitted }
    cadence := some { currentMs := s.cadenceMs, reason := s.cadenceReason }
    nextTimeout := s.nextTimeout.map utcToTs
    storage := some
      { backlogCount := s.storage.backlogCount, lastFlush := s.storage.lastFlushAt.map utcToTs }
    config := some (mapConfig s.config)
    health := s.health
    aggregatedApps := s.aggregatedApps.map mapApp
    records := s.records.map mapRecord }

/-! ### The client -/

/-- `DateTime::from_timestamp`. A leap second, which has more than 10^9 nanoseconds, is no `DateTime`
here. -/
def fromTimestamp (secs : Int) (nsecs : Nat) : Option DateTime :=
  if minUtcSecs ≤ secs ∧ secs ≤ maxUtcSecs ∧ nsecs < 1000000000 then some (secs * 1000000000 + nsecs)
  else none

def instantOf (ts : Pb.Timestamp) : Option DateTime := fromTimestamp ts.seconds (asU32 ts.nanos)

def stateOf : Int → ActivityState
  | 1 => .active
  | 2 => .passive
  | 3 => .inactive
  | 4 => .locked
  | _ => .inactive

/-- A text that is empty when it is absent. -/
def nonEmpty (s : String) : Option String := if s.isEmpty then none else some s

/-- `pretty_dur`. -/
def prettyDur (seconds : Nat) : String :=
  if seconds = 0 then "0s"
  else
    let days := seconds / (24 * 3600)
    let hours := seconds % (24 * 3600) / 3600
    let minutes := seconds % 3600 / 60
    let secs := seconds % 60
    let result := if 0 < days then toString days ++ "d" else ""
    let result := if 0 < hours then result ++ toString hours ++ "h" else result
    let result := if 0 < minutes then result ++ toString minutes ++ "m" else result
    if 0 < secs ∨ result.isEmpty then result ++ toString secs ++ "s" else result

section Client

-- What the client reads from its clock where an instant is missing.
variable (now : DateTime)

def mapPbFocus (f : Pb.Focus) : WindowFocusInfo :=
  { pid := f.pid
    processStartTime := f.processStartTime
    appName := f.appName
    windowTitle := f.windowTitle
    windowId := (parseU32 f.windowId.toList).getD 0
    windowInstanceStart := (f.windowInstanceStart.bind instantOf).getD now
    windowPosition := f.windowPosition.map fun p => { x := p.x, y := p.y }
    windowSize := f.windowSize.map fun size => (size.width, size.height) }

def mapPbTransition (t : Pb.Transition) : Transition :=
  { fromState := stateOf t.fromState
    toState := stateOf t.toState
    atTime := (t.atTime.bind instantOf).getD now
    bySignal := none
    runId := nonEmpty t.runId }

def mapPbWindow (w : Pb.SnapshotWindow) : SnapshotWindow :=
  { windowId := w.windowId
    windowTitle := w.windowTitle
    firstSeen := (w.firstSeen.bind instantOf).getD now
    lastSeen := (w.lastSeen.bind instantOf).getD now
    durationSeconds := w.durationSeconds
    isGroup := w.isGroup }

def mapPbApp (a : Pb.SnapshotApp) : SnapshotApp :=
  { appName := a.appName
    pid := a.pid
    processStartTime := a.processStartTime
    windows := a.windows.map (mapPbWindow now)
    totalDurationSecs := a.totalDurationSecs
    totalDurationPretty :=
      if a.totalDurationPretty.isEmpty then prettyDur a.totalDurationSecs else a.totalDurationPretty }

def mapPbRecord (r : Pb.ActivityRecord) : ActivityRecord :=
  { recordId := r.recordId
    runId := nonEmpty r.runId
    startTime := (r.startTime.bind instantOf).getD now
    endTime := r.endTime.bind instantOf
    state := stateOf r.state
    focusInfo := r.focus.map (mapPbFocus now)
    eventCount := r.eventCount
    triggeringEvents := r.triggeringEvents }

def mapPbConfig (c : Pb.Config) : ConfigSummary :=
  { activeGraceSecs := c.activeGraceSecs
    idleThresholdSecs := c.idleThresholdSecs
    retentionMinutes := c.retentionMinutes
    ephemeralMaxDurationSecs := c.ephemeralMaxDurationSecs
    ephemeralMinDistinctIds := c.ephemeralMinDistinctIds
    ephemeralAppMaxDurationSecs := c.ephemeralAppMaxDurationSecs
    ephemeralAppMinDistinctProcs := c.ephemeralAppMinDistinctProcs }

def mapPbSnapshot (reply : Pb.SnapshotReply) : ServedSnapshot :=
  { seq := reply.seq
    monoNs := reply.monoNs
    runId := nonEmpty reply.runId
    activityState := stateOf reply.activityState
    focus := reply.focus.map (mapPbFocus now)
    lastTransition := reply.lastTransition.map (mapPbTransition now)
    transitionsRecent := []
    counts := (reply.counts.map fun c =>
      { signalsSeen := c.signalsSeen, hintsSeen := c.hintsSeen,
        recordsEmitted := c.recordsEmitted }).getD .default
    cadenceMs := (reply.cadence.map (·.currentMs)).getD 0
    cadenceReason := (reply.cadence.map (·.reason)).getD ""
    nextTimeout := reply.nextTimeout.bind instantOf
    storage := (reply.storage.map fun i =>
      { backlogCount := i.backlogCount,
        lastFlushAt := i.lastFlush.bind instantOf }).getD { backlogCount := 0, lastFlushAt := none }
    config := (reply.config.map mapPbConfig).getD
      { activeGraceSecs := 0, idleThresholdSecs := 0, retentionMinutes := 0,
        ephemeralMaxDurationSecs := 0, ephemeralMinDistinctIds := 0,
        ephemeralAppMaxDurationSecs := 0, ephemeralAppMinDistinctProcs := 0 }
    health := reply.health
    aggregatedApps := reply.aggregatedApps.map (mapPbApp now)
    records := reply.records.map (mapPbRecord now) }

end Client

/-! ### What comes back -/

variable {text : InstantText} (now : DateTime)

open SnapshotJson (instant)

theorem instantOf_utcToTs {t : DateTime} (h : InUtcRange t) : instantOf (utcToTs t) = some t := by
  obtain ⟨hmin, hmax⟩ := h
  have hnanos : asU32 (t % 1000000000) = (t % 1000000000).toNat := by
    unfold asU32
    omega
  have hrange : minUtcSecs ≤ t / 1000000000 ∧ t / 1000000000 ≤ maxUtcSecs ∧
      (t % 1000000000).toNat < 1000000000 := ⟨hmin, hmax, by omega⟩
  have hsum (u : Int) : u / 1000000000 * 1000000000 + ((u % 1000000000).toNat : Int) = u := by
    omega
  rw [instantOf, utcToTs, hnanos, fromTimestamp, if_pos hrange]
  exact congrArg some (hsum t)

theorem bind_instantOf {t : Option DateTime} (h : ∀ u ∈ t, InUtcRange u) :
    (t.map utcToTs).bind instantOf = t := by
  cases t with
  | none => rfl
  | some t => exact instantOf_utcToTs (h t rfl)

theorem stateOf_mapState (state : ActivityState) : stateOf (mapState state) = state := by
  cases state <;> rfl

theorem nonEmpty_getD_iff {s : Option String} : nonEmpty (s.getD "") = s ↔ s ≠ some "" := by
  cases s with
  | none => simp [nonEmpty]
  | some s => by_cases h : s = "" <;> simp [nonEmpty, h]

theorem prettyDur_ne_empty (seconds : Nat) : prettyDur seconds ≠ "" := by
  have hlast (result : String) (secs : Nat) :
      (if 0 < secs ∨ result.isEmpty then result ++ toString secs ++ "s" else result) ≠ "" := by
    split_ifs with h
    · simp
    · exact fun hempty => h (.inr (by simp [hempty]))
  unfold prettyDur
  by_cases hzero : seconds = 0
  · simp [hzero]
  · rw [if_neg hzero]
    exact hlast _ _

theorem map_map_eq_self_iff {α β : Type} {f : α → β} {g : β → α} {p : α → Prop} {as : List α}
    (h : ∀ a ∈ as, g (f a) = a ↔ p a) : (as.map f).map g = as ↔ ∀ a ∈ as, p a := by
  induction as with
  | nil => simp
  | cons a as ih =>
    have ha := h a (by simp)
    have has := ih fun b hb => h b (by simp [hb])
    simp only [List.map_cons, List.cons.injEq, ha, has, List.forall_mem_cons]

theorem mapPbFocus_mapFocus {f : WindowFocusInfo} (h : (SnapshotJson.windowFocusInfo text).Fits f) :
    mapPbFocus now (mapFocus f) = f := by
  obtain ⟨_, _, hwindow, hinstant, _⟩ := h
  have hid : (parseU32 (toString f.windowId).toList).getD 0 = f.windowId := by
    rw [parseU32_toString hwindow, Option.getD_some]
  simp only [mapPbFocus, mapFocus, hid, Option.bind_some, instantOf_utcToTs hinstant.1,
    Option.getD_some, Option.map_map, Function.comp_def, Option.map_id']

theorem map_mapPbFocus {f : Option WindowFocusInfo} (h : (SnapshotJson.optionFocus text).Fits f) :
    (f.map mapFocus).map (mapPbFocus now) = f := by
  cases f with
  | none => rfl
  | some f => exact congrArg some (mapPbFocus_mapFocus now (h f rfl))

theorem mapPbTransition_mapTransition_iff {t : Transition}
    (h : (SnapshotJson.transition text).Fits t) :
    mapPbTransition now (mapTransition t) = t ↔ t.bySignal = none ∧ t.runId ≠ some "" := by
  have hat : (Option.bind (some (utcToTs t.atTime)) instantOf).getD now = t.atTime := by
    rw [Option.bind_some, instantOf_utcToTs h.1, Option.getD_some]
  obtain ⟨fromState, toState, atTime, bySignal, runId⟩ := t
  simp only [mapPbTransition, mapTransition, hat, stateOf_mapState, Transition.mk.injEq, true_and,
    nonEmpty_getD_iff]
  exact and_congr eq_comm Iff.rfl

theorem mapPbWindow_mapWindow {w : SnapshotWindow} (h : (SnapshotJson.snapshotWindow text).Fits w) :
    mapPbWindow now (mapWindow w) = w := by
  obtain ⟨hfirst, hlast, _⟩ := h
  simp only [mapPbWindow, mapWindow, Option.bind_some, instantOf_utcToTs hfirst.1,
    instantOf_utcToTs hlast.1, Option.getD_some]

theorem mapPbApp_mapApp_iff {a : SnapshotApp} (h : (SnapshotJson.snapshotApp text).Fits a) :
    mapPbApp now (mapApp a) = a ↔ a.totalDurationPretty ≠ "" := by
  obtain ⟨_, _, hwindows, _⟩ := h
  have hwindows : (a.windows.map mapWindow).map (mapPbWindow now) = a.windows := by
    refine (map_map_eq_self_iff fun w hw => ?_).mpr fun _ _ => trivial
    exact iff_true_intro (mapPbWindow_mapWindow now (hwindows w hw))
  obtain ⟨appName, pid, processStartTime, windows, totalDurationSecs, pretty⟩ := a
  simp only [mapPbApp, mapApp, hwindows, SnapshotApp.mk.injEq, true_and]
  by_cases hpretty : pretty = ""
  · simp [hpretty, prettyDur_ne_empty]
  · simp [hpretty]

theorem mapPbRecord_mapRecord_iff {r : ActivityRecord} (h : (SnapshotJson.activityRecord text).Fits r) :
    mapPbRecord now (mapRecord r) = r ↔ r.runId ≠ some "" := by
  obtain ⟨_, hstart, hend, hfocus, _⟩ := h
  have hstart : (Option.bind (some (utcToTs r.startTime)) instantOf).getD now = r.startTime := by
    rw [Option.bind_some, instantOf_utcToTs hstart.1, Option.getD_some]
  have hend : (r.endTime.map utcToTs).bind instantOf = r.endTime :=
    bind_instantOf fun t ht => (hend t ht).1
  obtain ⟨recordId, runId, startTime, endTime, state, focusInfo, eventCount, events⟩ := r
  simp only [mapPbRecord, mapRecord, hstart, hend, map_mapPbFocus now hfocus, stateOf_mapState,
    ActivityRecord.mk.injEq, true_and, and_true, nonEmpty_getD_iff]

theorem mapPbConfig_mapConfig {c : ConfigSummary} (hids : c.ephemeralMinDistinctIds < 2 ^ 32)
    (hprocs : c.ephemeralAppMinDistinctProcs < 2 ^ 32) : mapPbConfig (mapConfig c) = c := by
  have hcast (n : Nat) (h : n < 2 ^ 32) : asU32 n = n := by
    unfold asU32
    omega
  simp only [mapPbConfig, mapConfig, hcast _ hids, hcast _ hprocs]

/-- The snapshot has nothing that the message has no place for: no recent transition, no signal behind
the last one, no empty text. -/
def ServedSnapshot.FitsMessage (s : ServedSnapshot) : Prop :=
  s.transitionsRecent = [] ∧ (∀ t ∈ s.lastTransition, t.bySignal = none ∧ t.runId ≠ some "") ∧
    (∀ r ∈ s.records, r.runId ≠ some "") ∧ ∀ a ∈ s.aggregatedApps, a.totalDurationPretty ≠ ""

theorem map_mapPbTransition_iff {t : Option Transition}
    (h : (SnapshotJson.optionTransition text).Fits t) :
    (t.map mapTransition).map (mapPbTransition now) = t ↔
      ∀ u ∈ t, u.bySignal = none ∧ u.runId ≠ some "" := by
  cases t with
  | none => simp
  | some t =>
    have ht := mapPbTransition_mapTransition_iff now (h t rfl)
    simp [ht]

theorem mapPbSnapshot_toPb_iff {s : ServedSnapshot} (h : (SnapshotJson.snapshot text).Fits s)
    (hrun : s.runId ≠ some "") (hids : s.config.ephemeralMinDistinctIds < 2 ^ 32)
    (hprocs : s.config.ephemeralAppMinDistinctProcs < 2 ^ 32) :
    mapPbSnapshot now (toPb s) = s ↔ s.FitsMessage := by
  obtain ⟨_, _, hfocus, hlast, _, _, htimeout, hstorage, _, happs, hrecords⟩ := h
  have hrun : nonEmpty (s.runId.getD "") = s.runId := nonEmpty_getD_iff.mpr hrun
  have hfocus := map_mapPbFocus now hfocus
  have hlast := map_mapPbTransition_iff now hlast
  have htimeout : (s.nextTimeout.map utcToTs).bind instantOf = s.nextTimeout :=
    bind_instantOf fun t ht => (htimeout t ht).1
  have hflush : (s.storage.lastFlushAt.map utcToTs).bind instantOf = s.storage.lastFlushAt :=
    bind_instantOf fun t ht => (hstorage.2 t ht).1
  have happs := map_map_eq_self_iff fun a ha => mapPbApp_mapApp_iff now (happs a ha)
  have hrecords := map_map_eq_self_iff fun r hr => mapPbRecord_mapRecord_iff now (hrecords r hr)
  have hconfig := mapPbConfig_mapConfig hids hprocs
  rw [ServedSnapshot.FitsMessage, ← hlast, ← happs, ← hrecords]
  obtain ⟨⟨seq, runId, state, focus, last, recent, counts, cadenceMs, cadenceReason, records⟩, monoNs,
    timeout, storage, config, health, apps⟩ := s
  dsimp only at hrun hfocus htimeout hflush hconfig
  simp only [mapPbSnapshot, toPb, Option.map_some, Option.getD_some, hrun, stateOf_mapState, hfocus,
    htimeout, hflush, hconfig, ServedSnapshot.mk.injEq, Snapshot.mk.injEq, true_and]
  constructor
  · rintro ⟨⟨hlast, hrecent, hrecords⟩, happs⟩
    exact ⟨hrecent.symm, hlast, hrecords, happs⟩
  · rintro ⟨hrecent, hlast, hrecords, happs⟩
    exact ⟨⟨hlast, hrecent.symm, hrecords⟩, happs⟩

/-- A client gets the same snapshot over gRPC and over HTTP if and only if the message has a place for
all of it. -/
theorem grpc_eq_http_iff {render : Json → String} {parse : String → Option Json} {s : ServedSnapshot}
    (hfits : (SnapshotJson.snapshot text).Fits s)
    (hparse : parse (s.body render text) = some ((SnapshotJson.snapshot text).toJson s))
    (hrun : s.runId ≠ some "") (hids : s.config.ephemeralMinDistinctIds < 2 ^ 32)
    (hprocs : s.config.ephemeralAppMinDistinctProcs < 2 ^ 32) :
    httpSnapshot text parse (s.body render text) = some (mapPbSnapshot now (toPb s)) ↔ s.FitsMessage := by
  rw [httpSnapshot_body hfits hparse, Option.some_inj, eq_comm]
  exact mapPbSnapshot_toPb_iff now hfits hrun hids hprocs

/-! ### A snapshot before and after a transition -/

/-- 2024-04-22, at ten o'clock. -/
def sampleInstant : DateTime := 1713780000 * 1000000000

/-- `chrono` at this instant. -/
def sampleText : InstantText where
  write t := if t = sampleInstant then "2024-04-22T10:00:00Z" else ""
  read s := if s = "2024-04-22T10:00:00Z" then some sampleInstant else none

def sampleFocus : WindowFocusInfo :=
  { pid := 42, processStartTime := 1337, appName := "Terminal", windowTitle := "tab-1", windowId := 1,
    windowInstanceStart := sampleInstant, windowPosition := some { x := 10, y := 20 },
    windowSize := some (1440, 900) }

/-- Before the first transition. -/
def quietSnapshot : ServedSnapshot :=
  { seq := 1, runId := some "AAAAAAAAAAAAAAAAAAAAAA", activityState := .inactive,
    focus := some sampleFocus, lastTransition := none, transitionsRecent := [], counts := .default,
    cadenceMs := 10000, cadenceReason := "Inactive",
    records := [{ recordId := 1, runId := some "AAAAAAAAAAAAAAAAAAAAAA", startTime := sampleInstant,
                  endTime := none, state := .inactive, focusInfo := some sampleFocus, eventCount := 0,
                  triggeringEvents := [] }]
    monoNs := 1713780000000000000, nextTimeout := some sampleInstant,
    storage := { backlogCount := 0, lastFlushAt := none },
    config := { activeGraceSecs := 30, idleThresholdSecs := 300, retentionMinutes := 4320,
                ephemeralMaxDurationSecs := 60, ephemeralMinDistinctIds := 3,
                ephemeralAppMaxDurationSecs := 60, ephemeralAppMinDistinctProcs := 3 },
    health := [], aggregatedApps := [] }

def sampleTransition : Transition :=
  { fromState := .inactive, toState := .active, atTime := sampleInstant,
    bySignal := some "KeyboardInput", runId := some "AAAAAAAAAAAAAAAAAAAAAA" }

/-- After it. -/
def activeSnapshot : ServedSnapshot :=
  { quietSnapshot with
    seq := 2, activityState := .active, lastTransition := some sampleTransition,
    transitionsRecent := [sampleTransition] }

/-- `serde_json` as a writer. -/
def sampleRender (json : Json) : String := String.ofList json.render

/-- `serde_json` at the body of a snapshot. -/
def sampleParse (s : ServedSnapshot) (body : String) : Option Json :=
  if body = s.body sampleRender sampleText then some ((SnapshotJson.snapshot sampleText).toJson s) else none

theorem sampleInstant_fits : (instant sampleText).Fits sampleInstant := ⟨by decide, by decide⟩

theorem sampleFocus_fits : (SnapshotJson.windowFocusInfo sampleText).Fits sampleFocus := by
  refine ⟨?_, ?_, ?_, sampleInstant_fits, ?_, ?_⟩
  · exact ⟨by decide, by decide⟩
  · exact (by decide : 1337 < 2 ^ 64)
  · exact (by decide : 1 < 2 ^ 32)
  · rintro _ ⟨⟩
    exact ⟨⟨by decide, by decide⟩, ⟨by decide, by decide⟩⟩
  · rintro _ ⟨⟩
    exact ⟨(by decide : 1440 < 2 ^ 32), (by decide : 900 < 2 ^ 32)⟩

theorem quietSnapshot_fits : (SnapshotJson.snapshot sampleText).Fits quietSnapshot := by
  refine ⟨(by decide : 1 < 2 ^ 64), (by decide : 1713780000000000000 < 2 ^ 64), ?_, nofun, nofun,
    (by decide : 10000 < 2 ^ 32), ?_, ?_, ?_, nofun, ?_⟩
  · rintro _ ⟨⟩
    exact sampleFocus_fits
  · rintro _ ⟨⟩
    exact sampleInstant_fits
  · exact ⟨(by decide : 0 < 2 ^ 64), nofun⟩
  · exact ⟨(by decide : 30 < 2 ^ 64), (by decide : 300 < 2 ^ 64), (by decide : 4320 < 2 ^ 64),
      (by decide : 60 < 2 ^ 64), (by decide : 3 < 2 ^ 64), (by decide : 60 < 2 ^ 64),
      (by decide : 3 < 2 ^ 64)⟩
  · intro r hr
    obtain rfl := List.mem_singleton.mp hr
    refine ⟨(by decide : 1 < 2 ^ 64), sampleInstant_fits, nofun, ?_, (by decide : 0 < 2 ^ 32), nofun⟩
    rintro _ ⟨⟩
    exact sampleFocus_fits

theorem activeSnapshot_fits : (SnapshotJson.snapshot sampleText).Fits activeSnapshot := by
  obtain ⟨_, hmono, hfocus, _, _, hrest⟩ := quietSnapshot_fits
  refine ⟨(by decide : 2 < 2 ^ 64), hmono, hfocus, ?_, ?_, hrest⟩
  · rintro _ ⟨⟩
    exact sampleInstant_fits
  · intro t ht
    obtain rfl := List.mem_singleton.mp ht
    exact sampleInstant_fits

/-- Before the first transition both give the same. -/
theorem grpc_eq_http_iff_quiet :
    httpSnapshot sampleText (sampleParse quietSnapshot) (quietSnapshot.body sampleRender sampleText) =
      some (mapPbSnapshot 0 (toPb quietSnapshot)) := by
  refine (grpc_eq_http_iff 0 quietSnapshot_fits (if_pos rfl) (by decide) (by decide)
    (by decide)).mpr ⟨rfl, nofun, ?_, nofun⟩
  intro r hr
  obtain rfl := List.mem_singleton.mp hr
  exact nofun

/-- After it the client misses the transition over gRPC. -/
theorem grpc_loses_transitions :
    (SnapshotJson.snapshot sampleText).Fits activeSnapshot ∧ activeSnapshot.runId ≠ some "" ∧
      activeSnapshot.config.ephemeralMinDistinctIds < 2 ^ 32 ∧
      activeSnapshot.config.ephemeralAppMinDistinctProcs < 2 ^ 32 ∧
      sampleParse activeSnapshot (activeSnapshot.body sampleRender sampleText) =
        some ((SnapshotJson.snapshot sampleText).toJson activeSnapshot) ∧
      httpSnapshot sampleText (sampleParse activeSnapshot) (activeSnapshot.body sampleRender sampleText) ≠
        some (mapPbSnapshot 0 (toPb activeSnapshot)) := by
  have hparse : sampleParse activeSnapshot (activeSnapshot.body sampleRender sampleText) =
      some ((SnapshotJson.snapshot sampleText).toJson activeSnapshot) := if_pos rfl
  refine ⟨activeSnapshot_fits, by decide, by decide, by decide, hparse, ?_⟩
  rw [httpSnapshot_body activeSnapshot_fits hparse]
  intro h
  have hrecent := congrArg (·.transitionsRecent) (Option.some.inj h)
  exact absurd hrecent (by decide)

end Kronical
