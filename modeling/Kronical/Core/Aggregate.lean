import Mathlib.Data.Finset.Card
import Mathlib.Data.List.Dedup
import Kronical.Core.Records
import Kronical.Core.Text
import Kronical.Lib.HashMap
import Kronical.Lib.Recency

/-!
# Aggregated activity

`aggregate_activities_since` adds the records of each app up, by window, and then moves windows out of the
app's map in three passes: short-lived windows of one title become an ephemeral group, windows of one title
that were seen within an hour of each other become a temporal group, and of the others the least recent
ones are dropped.

Hash maps are iterated in orders that are arguments here, one for each place where the source iterates a
map. `to_lowercase` is an argument as well. Sums wrap as in a release build.
-/

namespace Kronical

/-! ### The parts of the records -/

/-- The part of a record that counts: it lies behind `since` and lasts a second or more. -/
structure Span where
  focus : WindowFocusInfo
  recStart : DateTime
  recEnd : DateTime
  duration : Nat
  deriving DecidableEq, Repr

/-- The app that a focus belongs to: its pid, as a `u32`, and the start of its process. -/
def appKey (focus : WindowFocusInfo) : Nat × Nat := ((focus.pid % 2 ^ 32).toNat, focus.processStartTime)

/-- The focus has a title and a window id. -/
def isTitled (focus : WindowFocusInfo) : Bool := !focus.windowTitle.isEmpty && 0 < focus.windowId

/-- What of a record counts. -/
def clip (since now : DateTime) (record : ActivityRecord) : Option Span :=
  record.focusInfo.bind fun focus =>
    let recStart := max record.startTime since
    let recEnd := record.endTime.getD now
    if recEnd ≤ since then none
    else
      let dur := numSeconds (recEnd - recStart)
      if dur ≤ 0 then none else some ⟨focus, recStart, recEnd, dur.toNat⟩

/-! ### Apps and windows -/

structure WindowActivity where
  windowId : Nat
  windowTitle : String
  durationSeconds : Nat
  firstSeen : DateTime
  lastSeen : DateTime
  recordCount : Nat
  deriving DecidableEq, Repr

namespace WindowActivity

/-- The window before its first span is added. -/
def fresh (s : Span) : WindowActivity :=
  { windowId := s.focus.windowId, windowTitle := s.focus.windowTitle, durationSeconds := 0,
    firstSeen := s.recStart, lastSeen := s.recEnd, recordCount := 0 }

def add (w : WindowActivity) (s : Span) : WindowActivity :=
  { w with
    windowTitle := s.focus.windowTitle
    durationSeconds := (w.durationSeconds + s.duration) % 2 ^ 64
    firstSeen := min w.firstSeen s.recStart
    lastSeen := max w.lastSeen s.recEnd
    recordCount := (w.recordCount + 1) % 2 ^ 32 }

end WindowActivity

/-- An entry of a map of windows. -/
abbrev WindowEntry := Nat × WindowActivity

structure EphemeralGroup where
  titleKey : String
  distinctIds : Finset Nat
  occurrenceCount : Nat
  totalDurationSeconds : Nat
  firstSeen : DateTime
  lastSeen : DateTime
  deriving DecidableEq

namespace EphemeralGroup

/-- The group before its first window is added. -/
def fresh (titleKey : String) (w : WindowActivity) : EphemeralGroup :=
  { titleKey, distinctIds := ∅, occurrenceCount := 0, totalDurationSeconds := 0,
    firstSeen := w.firstSeen, lastSeen := w.lastSeen }

def add (group : EphemeralGroup) (entry : WindowEntry) : EphemeralGroup :=
  { group with
    distinctIds := insert entry.1 group.distinctIds
    occurrenceCount := (group.occurrenceCount + 1) % 2 ^ 32
    totalDurationSeconds := (group.totalDurationSeconds + entry.2.durationSeconds) % 2 ^ 64
    firstSeen := min group.firstSeen entry.2.firstSeen
    lastSeen := max group.lastSeen entry.2.lastSeen }

end EphemeralGroup

structure TemporalGroup where
  titleKey : String
  distinctIds : Finset Nat
  occurrenceCount : Nat
  totalDurationSeconds : Nat
  maxDurationSeconds : Nat
  firstSeen : DateTime
  lastSeen : DateTime
  anchorLastSeen : DateTime
  deriving DecidableEq

/-- `u64::saturating_add`. -/
def saturatingAdd (a b : Nat) : Nat := min (a + b) (2 ^ 64 - 1)

/-- The group of a first window and others. -/
def buildTemporalGroup (titleKey : String) (first : WindowEntry) (rest : List WindowEntry) :
    TemporalGroup :=
  let windows := first :: rest
  let distinctIds := windows.foldl (fun ids w => insert w.1 ids) (∅ : Finset Nat)
  let lastSeen := windows.foldl (fun t w => if t < w.2.lastSeen then w.2.lastSeen else t)
    first.2.lastSeen
  { titleKey, distinctIds
    occurrenceCount := distinctIds.card % 2 ^ 32
    totalDurationSeconds := windows.foldl (fun total w => saturatingAdd total w.2.durationSeconds) 0
    maxDurationSeconds := windows.foldl (fun longest w => max longest w.2.durationSeconds) 0
    firstSeen := windows.foldl (fun t w => if w.2.firstSeen < t then w.2.firstSeen else t)
      first.2.firstSeen
    lastSeen, anchorLastSeen := lastSeen }

structure AggregatedActivity where
  appName : String
  pid : Int
  processStartTime : Nat
  windows : HashMap Nat WindowActivity
  ephemeralGroups : HashMap String EphemeralGroup
  temporalGroups : List TemporalGroup
  totalDurationSeconds : Nat
  firstSeen : DateTime
  lastSeen : DateTime
  deriving DecidableEq

/-! ### Normalised titles -/

/-- `normalize_title`, with `str::to_lowercase` as an argument. -/
def normalizeTitle (toLowercase : String → String) (s : String) : String :=
  toLowercase (String.ofList (trim s))

/-! ### Clusters -/

/-- `Duration::minutes(60)`. -/
def clusterThreshold : Int := 60 * 60 * 1000000000

/-- The open cluster and when its last window was last seen. -/
structure ClusterState where
  current : List WindowEntry
  prevLastSeen : Option DateTime
  deriving DecidableEq, Repr

/-- The ids and the group of a cluster that has two windows or more. -/
def closeCluster (titleKey : String) : List WindowEntry → List (List Nat × TemporalGroup)
  | first :: second :: rest =>
    [((first :: second :: rest).map (·.1), buildTemporalGroup titleKey first (second :: rest))]
  | _ => []

/-- One turn of the loop over the windows of a title. -/
def clusterStep (titleKey : String) :
    Transducer ClusterState WindowEntry (List Nat × TemporalGroup) := fun s entry =>
  match s.current, s.prevLastSeen with
  | _ :: _, some prev =>
    if prev - entry.2.lastSeen ≤ clusterThreshold then
      (⟨s.current ++ [entry], some entry.2.lastSeen⟩, [])
    else
      (⟨[entry], some entry.2.lastSeen⟩, closeCluster titleKey s.current)
  -- A cluster that is not empty has a last window.
  | _, _ => (⟨[entry], some entry.2.lastSeen⟩, [])

/-- The groups of the windows of a title, with the ids of their members. -/
def clusterTitle (titleKey : String) (items : List WindowEntry) : List (List Nat × TemporalGroup) :=
  if items.length < 2 then []
  else
    let looped := (clusterStep titleKey).run ⟨[], none⟩
      (Recency.sortDesc (fun entry : WindowEntry => entry.2.lastSeen) items)
    looped.2 ++ closeCluster titleKey looped.1.current

/-! ### The function -/

/-- The places where a hash map of an app is iterated. -/
inductive MapSite
  | windows
  | staged
  | ungrouped
  | byTitle
  | groupedIds
  | trimmed
  deriving DecidableEq, Repr

/-- The orders in which `aggregate_activities_since` iterates its hash maps. -/
structure AggregateOrder where
  apps : IterOrder
  inApp : Nat × Nat → MapSite → IterOrder

structure Thresholds where
  shortThreshSecs : Nat
  ephemeralMinDistinctIds : Nat
  maxWindowsPerApp : Nat
  deriving DecidableEq, Repr

namespace AggregatedActivity

/-- The app before its first span is added. -/
def fresh (s : Span) : AggregatedActivity :=
  { appName := s.focus.appName, pid := s.focus.pid, processStartTime := s.focus.processStartTime,
    windows := ∅, ephemeralGroups := ∅, temporalGroups := [], totalDurationSeconds := 0,
    firstSeen := s.recStart, lastSeen := s.recEnd }

def add (agg : AggregatedActivity) (s : Span) : AggregatedActivity :=
  { agg with
    totalDurationSeconds := (agg.totalDurationSeconds + s.duration) % 2 ^ 64
    firstSeen := min agg.firstSeen s.recStart
    lastSeen := max agg.lastSeen s.recEnd
    windows :=
      if isTitled s.focus then
        agg.windows.upsert s.focus.windowId (WindowActivity.fresh s) (·.add s)
      else agg.windows }

variable (toLowercase : String → String) (thresholds : Thresholds) (order : MapSite → IterOrder)

/-- The title that a window is grouped by. -/
def titleOf (entry : WindowEntry) : String := normalizeTitle toLowercase entry.2.windowTitle

/-- The short-lived windows, as the first pass comes by them. -/
def shortEntries (agg : AggregatedActivity) : List WindowEntry :=
  (agg.windows.iter (order .windows)).filter
    fun entry => entry.2.durationSeconds < thresholds.shortThreshSecs

/-- A group for each title of a short-lived window. -/
def staged (agg : AggregatedActivity) : HashMap String EphemeralGroup :=
  HashMap.tally (fun entry => EphemeralGroup.fresh (titleOf toLowercase entry) entry.2)
    EphemeralGroup.add (titleOf toLowercase) (agg.shortEntries thresholds order)

def groupMembers (agg : AggregatedActivity) : HashMap String (List Nat) :=
  HashMap.tally (fun _ => []) (fun ids entry => ids ++ [entry.1]) (titleOf toLowercase)
    (agg.shortEntries thresholds order)

/-- The first pass: groups of short-lived windows of one title. -/
def groupEphemeral (agg : AggregatedActivity) : AggregatedActivity :=
  ((agg.staged toLowercase thresholds order).iter (order .staged)).foldl
    (fun kept group =>
      if thresholds.ephemeralMinDistinctIds ≤ group.2.distinctIds.card then
        { kept with
          ephemeralGroups := kept.ephemeralGroups.insert group.1 group.2
          windows := kept.windows.eraseAll
            (((agg.groupMembers toLowercase thresholds order).lookup group.1).getD []) }
      else kept)
    agg

/-- The windows of each title. -/
def byTitle (agg : AggregatedActivity) : HashMap String (List WindowEntry) :=
  HashMap.tally (fun _ => []) (fun items entry => items ++ [entry]) (titleOf toLowercase)
    (agg.windows.iter (order .ungrouped))

/-- The temporal groups, with the ids of their members. -/
def temporalClusters (agg : AggregatedActivity) : List (List Nat × TemporalGroup) :=
  ((agg.byTitle toLowercase order).iter (order .byTitle)).flatMap
    fun title => clusterTitle title.1 title.2

/-- The second pass: groups of windows of one title that were seen close together. -/
def groupTemporal (agg : AggregatedActivity) : AggregatedActivity :=
  let clusters := agg.temporalClusters toLowercase order
  let groupedIds := (clusters.flatMap (·.1)).dedup
  { agg with
    windows := agg.windows.eraseAll (order .groupedIds groupedIds)
    temporalGroups := clusters.map (·.2) }

/-- The third pass: only the most recent windows are kept. -/
def trimWindows (agg : AggregatedActivity) : AggregatedActivity :=
  if 0 < thresholds.maxWindowsPerApp ∧ thresholds.maxWindowsPerApp < agg.windows.size then
    let winVec := Recency.sortDesc (fun entry : WindowEntry => entry.2.lastSeen)
      (agg.windows.iter (order .trimmed))
    { agg with windows := HashMap.insertAll ∅ (winVec.take thresholds.maxWindowsPerApp) }
  else agg

/-- The three passes over an app. -/
def group (agg : AggregatedActivity) : AggregatedActivity :=
  trimWindows thresholds order
    (groupTemporal toLowercase order (groupEphemeral toLowercase thresholds order agg))

end AggregatedActivity

/-- The spans of the records. -/
def spans (records : List ActivityRecord) (since now : DateTime) : List Span :=
  records.filterMap (clip since now)

/-- The apps with their windows, before any of them are grouped. -/
def appMap (records : List ActivityRecord) (since now : DateTime) :
    HashMap (Nat × Nat) AggregatedActivity :=
  HashMap.tally AggregatedActivity.fresh AggregatedActivity.add (fun s => appKey s.focus)
    (spans records since now)

def aggregateActivitiesSince (toLowercase : String → String) (order : AggregateOrder)
    (records : List ActivityRecord) (since now : DateTime) (thresholds : Thresholds) :
    List AggregatedActivity :=
  let apps := ((appMap records since now).iter order.apps).map
    fun app => app.2.group toLowercase thresholds (order.inApp app.1)
  Recency.sortDesc AggregatedActivity.lastSeen apps

end Kronical
