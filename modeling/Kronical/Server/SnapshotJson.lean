import Kronical.Core.Snapshot
import Kronical.Lib.Json

/-!
# The snapshot as JSON

The whole snapshot, as the HTTP server sends it: `serde_json` writes each struct as an object whose keys
are the names of its fields in camel case, and reads it back in the same way. How the text of an instant
looks, and how the text of a JSON value is read, is left to a parameter.
-/

namespace Kronical

/-! ### The rest of the snapshot -/

structure StorageInfo where
  backlogCount : Nat
  lastFlushAt : Option DateTime
  deriving DecidableEq, Repr

structure ConfigSummary where
  activeGraceSecs : Nat
  idleThresholdSecs : Nat
  retentionMinutes : Nat
  ephemeralMaxDurationSecs : Nat
  ephemeralMinDistinctIds : Nat
  ephemeralAppMaxDurationSecs : Nat
  ephemeralAppMinDistinctProcs : Nat
  deriving DecidableEq, Repr

structure SnapshotWindow where
  windowId : String
  windowTitle : String
  firstSeen : DateTime
  lastSeen : DateTime
  durationSeconds : Nat
  isGroup : Bool
  deriving DecidableEq, Repr

structure SnapshotApp where
  appName : String
  pid : Int
  processStartTime : Nat
  windows : List SnapshotWindow
  totalDurationSecs : Nat
  totalDurationPretty : String
  deriving DecidableEq, Repr

/-- The snapshot with the fields that no state of the pipeline decides. -/
structure ServedSnapshot extends Snapshot where
  monoNs : Nat
  nextTimeout : Option DateTime
  storage : StorageInfo
  config : ConfigSummary
  health : List String
  aggregatedApps : List SnapshotApp
  deriving DecidableEq, Repr

/-! ### Codecs -/

/-- How `chrono` writes an instant and reads it back. -/
structure InstantText where
  write : DateTime → String
  read : String → Option DateTime

/-- `DateTime::MIN_UTC` and `DateTime::MAX_UTC`, in seconds. -/
def minUtcSecs : Int := -8334601228800

def maxUtcSecs : Int := 8210266876799

/-- The instants that a `DateTime` can be. -/
def InUtcRange (t : DateTime) : Prop :=
  minUtcSecs ≤ t / 1000000000 ∧ t / 1000000000 ≤ maxUtcSecs

instance (t : DateTime) : Decidable (InUtcRange t) := inferInstanceAs (Decidable (_ ∧ _))

namespace SnapshotJson

open Json (Codec)

def u64 : Codec Nat := Codec.unsigned (2 ^ 64)

def u32 : Codec Nat := Codec.unsigned (2 ^ 32)

def i32 : Codec Int := Codec.signed 32

def string : Codec String := Codec.string

def optionString : Codec (Option String) := string.option fun _ => nofun

theorem string_fits (s : String) : string.Fits s := trivial

theorem optionString_fits (s : Option String) : optionString.Fits s := fun t _ => string_fits t

theorem stringList_fits (ss : List String) : string.list.Fits ss := fun s _ => string_fits s

/-- A counter of the bus. -/
def counter : Codec U64 where
  toJson n := u64.toJson n.val
  fromJson json := (u64.fromJson json).bind fun n => if h : n < 2 ^ 64 then some ⟨n, h⟩ else none
  missing := none
  Fits _ := True
  fromJson_toJson n _ := by
    rw [u64.fromJson_toJson n.val n.isLt, Option.bind_some, dif_pos n.isLt]

theorem counter_fits (n : U64) : counter.Fits n := trivial

variable (text : InstantText)

def instant : Codec DateTime where
  toJson t := .str (text.write t)
  fromJson
    | .str s => text.read s
    | _ => none
  missing := none
  Fits t := InUtcRange t ∧ text.read (text.write t) = some t
  fromJson_toJson _ ht := ht.2

def optionInstant : Codec (Option DateTime) := (instant text).option fun _ => nofun

def activityState : Codec ActivityState where
  toJson
    | .active => .str "Active"
    | .passive => .str "Passive"
    | .inactive => .str "Inactive"
    | .locked => .str "Locked"
  fromJson
    | .str "Active" => some .active
    | .str "Passive" => some .passive
    | .str "Inactive" => some .inactive
    | .str "Locked" => some .locked
    | _ => none
  missing := none
  Fits _ := True
  fromJson_toJson state _ := by cases state <;> rfl

theorem activityState_fits (state : ActivityState) : activityState.Fits state := trivial

def mousePosition : Codec MousePosition :=
  .record (fun p => [("x", i32.toJson p.x), ("y", i32.toJson p.y)])
    (fun o => do return { x := ← i32.field "x" o, y := ← i32.field "y" o })
    (fun p => i32.Fits p.x ∧ i32.Fits p.y)
    fun p ⟨hx, hy⟩ => by
      rw [i32.field_eq "x" hx, i32.field_eq "y" hy]
      rfl

def optionMousePosition : Codec (Option MousePosition) := mousePosition.option fun _ => nofun

def optionSize : Codec (Option (Nat × Nat)) := (u32.pair u32).option fun _ => nofun

def windowFocusInfo : Codec WindowFocusInfo :=
  .record
    (fun f =>
      [("pid", i32.toJson f.pid), ("processStartTime", u64.toJson f.processStartTime),
        ("appName", string.toJson f.appName), ("windowTitle", string.toJson f.windowTitle),
        ("windowId", u32.toJson f.windowId),
        ("windowInstanceStart", (instant text).toJson f.windowInstanceStart),
        ("windowPosition", optionMousePosition.toJson f.windowPosition),
        ("windowSize", optionSize.toJson f.windowSize)])
    (fun o => do
      return {
        pid := ← i32.field "pid" o
        processStartTime := ← u64.field "processStartTime" o
        appName := ← string.field "appName" o
        windowTitle := ← string.field "windowTitle" o
        windowId := ← u32.field "windowId" o
        windowInstanceStart := ← (instant text).field "windowInstanceStart" o
        windowPosition := ← optionMousePosition.field "windowPosition" o
        windowSize := ← optionSize.field "windowSize" o })
    (fun f => i32.Fits f.pid ∧ u64.Fits f.processStartTime ∧ u32.Fits f.windowId ∧
      (instant text).Fits f.windowInstanceStart ∧ optionMousePosition.Fits f.windowPosition ∧
      optionSize.Fits f.windowSize)
    fun f ⟨hpid, hprocess, hwindow, hinstance, hposition, hsize⟩ => by
      rw [i32.field_eq "pid" hpid,
        u64.field_eq "processStartTime" hprocess,
        string.field_eq "appName" (string_fits f.appName),
        string.field_eq "windowTitle" (string_fits f.windowTitle),
        u32.field_eq "windowId" hwindow,
        (instant text).field_eq "windowInstanceStart" hinstance,
        optionMousePosition.field_eq "windowPosition" hposition,
        optionSize.field_eq "windowSize" hsize]
      rfl

def optionFocus : Codec (Option WindowFocusInfo) := (windowFocusInfo text).option fun _ => nofun

def activityRecord : Codec ActivityRecord :=
  .record
    (fun r =>
      [("recordId", u64.toJson r.recordId), ("runId", optionString.toJson r.runId),
        ("startTime", (instant text).toJson r.startTime),
        ("endTime", (optionInstant text).toJson r.endTime), ("state", activityState.toJson r.state),
        ("focus", (optionFocus text).toJson r.focusInfo), ("eventCount", u32.toJson r.eventCount),
        ("triggeringEvents", u64.list.toJson r.triggeringEvents)])
    (fun o => do
      return {
        recordId := ← u64.field "recordId" o
        runId := ← optionString.field "runId" o
        startTime := ← (instant text).field "startTime" o
        endTime := ← (optionInstant text).field "endTime" o
        state := ← activityState.field "state" o
        focusInfo := ← (optionFocus text).field "focus" o
        eventCount := ← u32.field "eventCount" o
        triggeringEvents := ← u64.list.field "triggeringEvents" o })
    (fun r => u64.Fits r.recordId ∧ (instant text).Fits r.startTime ∧
      (optionInstant text).Fits r.endTime ∧ (optionFocus text).Fits r.focusInfo ∧
      u32.Fits r.eventCount ∧ u64.list.Fits r.triggeringEvents)
    fun r ⟨hid, hstart, hend, hfocus, hcount, hevents⟩ => by
      rw [u64.field_eq "recordId" hid, optionString.field_eq "runId" (optionString_fits r.runId),
        (instant text).field_eq "startTime" hstart, (optionInstant text).field_eq "endTime" hend,
        activityState.field_eq "state" (activityState_fits r.state),
        (optionFocus text).field_eq "focus" hfocus, u32.field_eq "eventCount" hcount,
        u64.list.field_eq "triggeringEvents" hevents]
      rfl

def transition : Codec Transition :=
  .record
    (fun t =>
      [("from", activityState.toJson t.fromState), ("to", activityState.toJson t.toState),
        ("at", (instant text).toJson t.atTime), ("bySignal", optionString.toJson t.bySignal),
        ("runId", optionString.toJson t.runId)])
    (fun o => do
      return {
        fromState := ← activityState.field "from" o
        toState := ← activityState.field "to" o
        atTime := ← (instant text).field "at" o
        bySignal := ← (optionString.orElse none).field "bySignal" o
        runId := ← (optionString.orElse none).field "runId" o })
    (fun t => (instant text).Fits t.atTime)
    fun t hat => by
      rw [activityState.field_eq "from" (activityState_fits t.fromState),
        activityState.field_eq "to" (activityState_fits t.toState),
        (instant text).field_eq "at" hat,
        (optionString.orElse none).field_eq "bySignal" (optionString_fits t.bySignal),
        (optionString.orElse none).field_eq "runId" (optionString_fits t.runId)]
      rfl

def optionTransition : Codec (Option Transition) := (transition text).option fun _ => nofun

def counts : Codec Counts :=
  .record
    (fun c =>
      [("signalsSeen", counter.toJson c.signalsSeen), ("hintsSeen", counter.toJson c.hintsSeen),
        ("recordsEmitted", counter.toJson c.recordsEmitted)])
    (fun o => do
      return {
        signalsSeen := ← counter.field "signalsSeen" o
        hintsSeen := ← counter.field "hintsSeen" o
        recordsEmitted := ← counter.field "recordsEmitted" o })
    (fun _ => True)
    fun c _ => by
      rw [counter.field_eq "signalsSeen" (counter_fits c.signalsSeen),
        counter.field_eq "hintsSeen" (counter_fits c.hintsSeen),
        counter.field_eq "recordsEmitted" (counter_fits c.recordsEmitted)]
      rfl

def storageInfo : Codec StorageInfo :=
  .record
    (fun i =>
      [("backlogCount", u64.toJson i.backlogCount),
        ("lastFlushAt", (optionInstant text).toJson i.lastFlushAt)])
    (fun o => do
      return {
        backlogCount := ← u64.field "backlogCount" o
        lastFlushAt := ← (optionInstant text).field "lastFlushAt" o })
    (fun i => u64.Fits i.backlogCount ∧ (optionInstant text).Fits i.lastFlushAt)
    fun i ⟨hbacklog, hflush⟩ => by
      rw [u64.field_eq "backlogCount" hbacklog, (optionInstant text).field_eq "lastFlushAt" hflush]
      rfl

def configSummary : Codec ConfigSummary :=
  .record
    (fun c =>
      [("activeGraceSecs", u64.toJson c.activeGraceSecs),
        ("idleThresholdSecs", u64.toJson c.idleThresholdSecs),
        ("retentionMinutes", u64.toJson c.retentionMinutes),
        ("ephemeralMaxDurationSecs", u64.toJson c.ephemeralMaxDurationSecs),
        ("ephemeralMinDistinctIds", u64.toJson c.ephemeralMinDistinctIds),
        ("ephemeralAppMaxDurationSecs", u64.toJson c.ephemeralAppMaxDurationSecs),
        ("ephemeralAppMinDistinctProcs", u64.toJson c.ephemeralAppMinDistinctProcs)])
    (fun o => do
      return {
        activeGraceSecs := ← u64.field "activeGraceSecs" o
        idleThresholdSecs := ← u64.field "idleThresholdSecs" o
        retentionMinutes := ← u64.field "retentionMinutes" o
        ephemeralMaxDurationSecs := ← u64.field "ephemeralMaxDurationSecs" o
        ephemeralMinDistinctIds := ← u64.field "ephemeralMinDistinctIds" o
        ephemeralAppMaxDurationSecs := ← u64.field "ephemeralAppMaxDurationSecs" o
        ephemeralAppMinDistinctProcs := ← u64.field "ephemeralAppMinDistinctProcs" o })
    (fun c => u64.Fits c.activeGraceSecs ∧ u64.Fits c.idleThresholdSecs ∧
      u64.Fits c.retentionMinutes ∧ u64.Fits c.ephemeralMaxDurationSecs ∧
      u64.Fits c.ephemeralMinDistinctIds ∧ u64.Fits c.ephemeralAppMaxDurationSecs ∧
      u64.Fits c.ephemeralAppMinDistinctProcs)
    fun c ⟨hgrace, hidle, hretention, hduration, hids, happ, hprocs⟩ => by
      rw [u64.field_eq "activeGraceSecs" hgrace, u64.field_eq "idleThresholdSecs" hidle,
        u64.field_eq "retentionMinutes" hretention,
        u64.field_eq "ephemeralMaxDurationSecs" hduration,
        u64.field_eq "ephemeralMinDistinctIds" hids,
        u64.field_eq "ephemeralAppMaxDurationSecs" happ,
        u64.field_eq "ephemeralAppMinDistinctProcs" hprocs]
      rfl

def snapshotWindow : Codec SnapshotWindow :=
  .record
    (fun w =>
      [("windowId", string.toJson w.windowId), ("windowTitle", string.toJson w.windowTitle),
        ("firstSeen", (instant text).toJson w.firstSeen),
        ("lastSeen", (instant text).toJson w.lastSeen),
        ("durationSeconds", u64.toJson w.durationSeconds),
        ("isGroup", Codec.boolean.toJson w.isGroup)])
    (fun o => do
      return {
        windowId := ← string.field "windowId" o
        windowTitle := ← string.field "windowTitle" o
        firstSeen := ← (instant text).field "firstSeen" o
        lastSeen := ← (instant text).field "lastSeen" o
        durationSeconds := ← u64.field "durationSeconds" o
        isGroup := ← Codec.boolean.field "isGroup" o })
    (fun w => (instant text).Fits w.firstSeen ∧ (instant text).Fits w.lastSeen ∧
      u64.Fits w.durationSeconds)
    fun w ⟨hfirst, hlast, hduration⟩ => by
      rw [string.field_eq "windowId" (string_fits w.windowId),
        string.field_eq "windowTitle" (string_fits w.windowTitle),
        (instant text).field_eq "firstSeen" hfirst, (instant text).field_eq "lastSeen" hlast,
        u64.field_eq "durationSeconds" hduration,
        Codec.boolean.field_eq "isGroup" (show Codec.boolean.Fits w.isGroup from trivial)]
      rfl

def snapshotApp : Codec SnapshotApp :=
  .record
    (fun a =>
      [("appName", string.toJson a.appName), ("pid", i32.toJson a.pid),
        ("processStartTime", u64.toJson a.processStartTime),
        ("windows", (snapshotWindow text).list.toJson a.windows),
        ("totalDurationSecs", u64.toJson a.totalDurationSecs),
        ("totalDurationPretty", string.toJson a.totalDurationPretty)])
    (fun o => do
      return {
        appName := ← string.field "appName" o
        pid := ← i32.field "pid" o
        processStartTime := ← u64.field "processStartTime" o
        windows := ← (snapshotWindow text).list.field "windows" o
        totalDurationSecs := ← u64.field "totalDurationSecs" o
        totalDurationPretty := ← string.field "totalDurationPretty" o })
    (fun a => i32.Fits a.pid ∧ u64.Fits a.processStartTime ∧
      (snapshotWindow text).list.Fits a.windows ∧ u64.Fits a.totalDurationSecs)
    fun a ⟨hpid, hprocess, hwindows, htotal⟩ => by
      rw [string.field_eq "appName" (string_fits a.appName), i32.field_eq "pid" hpid,
        u64.field_eq "processStartTime" hprocess,
        (snapshotWindow text).list.field_eq "windows" hwindows,
        u64.field_eq "totalDurationSecs" htotal,
        string.field_eq "totalDurationPretty" (string_fits a.totalDurationPretty)]
      rfl

def snapshot : Codec ServedSnapshot :=
  .record
    (fun s =>
      [("seq", u64.toJson s.seq), ("monoNs", u64.toJson s.monoNs),
        ("runId", optionString.toJson s.runId),
        ("activityState", activityState.toJson s.activityState),
        ("focus", (optionFocus text).toJson s.focus),
        ("lastTransition", (optionTransition text).toJson s.lastTransition),
        ("transitionsRecent", (transition text).list.toJson s.transitionsRecent),
        ("counts", counts.toJson s.counts), ("cadenceMs", u32.toJson s.cadenceMs),
        ("cadenceReason", string.toJson s.cadenceReason),
        ("nextTimeout", (optionInstant text).toJson s.nextTimeout),
        ("storage", (storageInfo text).toJson s.storage), ("config", configSummary.toJson s.config),
        ("health", string.list.toJson s.health),
        ("aggregatedApps", (snapshotApp text).list.toJson s.aggregatedApps),
        ("records", (activityRecord text).list.toJson s.records)])
    (fun o => do
      return {
        seq := ← u64.field "seq" o
        monoNs := ← u64.field "monoNs" o
        runId := ← (optionString.orElse none).field "runId" o
        activityState := ← activityState.field "activityState" o
        focus := ← (optionFocus text).field "focus" o
        lastTransition := ← (optionTransition text).field "lastTransition" o
        transitionsRecent := ← ((transition text).list.orElse []).field "transitionsRecent" o
        counts := ← counts.field "counts" o
        cadenceMs := ← u32.field "cadenceMs" o
        cadenceReason := ← string.field "cadenceReason" o
        nextTimeout := ← (optionInstant text).field "nextTimeout" o
        storage := ← (storageInfo text).field "storage" o
        config := ← configSummary.field "config" o
        health := ← string.list.field "health" o
        aggregatedApps := ← (snapshotApp text).list.field "aggregatedApps" o
        records := ← ((activityRecord text).list.orElse []).field "records" o })
    (fun s => u64.Fits s.seq ∧ u64.Fits s.monoNs ∧ (optionFocus text).Fits s.focus ∧
      (optionTransition text).Fits s.lastTransition ∧
      (transition text).list.Fits s.transitionsRecent ∧ u32.Fits s.cadenceMs ∧
      (optionInstant text).Fits s.nextTimeout ∧ (storageInfo text).Fits s.storage ∧
      configSummary.Fits s.config ∧ (snapshotApp text).list.Fits s.aggregatedApps ∧
      (activityRecord text).list.Fits s.records)
    fun s ⟨hseq, hmono, hfocus, hlast, hrecent, hcadence, htimeout, hstorage, hconfig, happs,
        hrecords⟩ => by
      rw [u64.field_eq "seq" hseq, u64.field_eq "monoNs" hmono,
        (optionString.orElse none).field_eq "runId" (optionString_fits s.runId),
        activityState.field_eq "activityState" (activityState_fits s.activityState),
        (optionFocus text).field_eq "focus" hfocus,
        (optionTransition text).field_eq "lastTransition" hlast,
        ((transition text).list.orElse []).field_eq "transitionsRecent" hrecent,
        counts.field_eq "counts" (show counts.Fits s.counts from trivial),
        u32.field_eq "cadenceMs" hcadence,
        string.field_eq "cadenceReason" (string_fits s.cadenceReason),
        (optionInstant text).field_eq "nextTimeout" htimeout,
        (storageInfo text).field_eq "storage" hstorage, configSummary.field_eq "config" hconfig,
        string.list.field_eq "health" (stringList_fits s.health),
        (snapshotApp text).list.field_eq "aggregatedApps" happs,
        ((activityRecord text).list.orElse []).field_eq "records" hrecords]
      rfl

end SnapshotJson

variable (render : Json → String) (text : InstantText) (parse : String → Option Json)

/-- The body that the HTTP server sends; `render` is `serde_json::to_string`. -/
def ServedSnapshot.body (self : ServedSnapshot) : String := render ((SnapshotJson.snapshot text).toJson self)

/-- What a client reads from the body. -/
def httpSnapshot (body : String) : Option ServedSnapshot :=
  (parse body).bind (SnapshotJson.snapshot text).fromJson

variable {render text parse}

theorem httpSnapshot_body {s : ServedSnapshot} (hfits : (SnapshotJson.snapshot text).Fits s)
    (hparse : parse (s.body render text) = some ((SnapshotJson.snapshot text).toJson s)) :
    httpSnapshot text parse (s.body render text) = some s := by
  rw [httpSnapshot, hparse, Option.bind_some, (SnapshotJson.snapshot text).fromJson_toJson s hfits]

end Kronical
