import Kronical.Core.Aggregate
import Kronical.Server.SnapshotPb

/-!
# The app tree

`build_app_tree` turns aggregated apps into the apps of a snapshot: an app that was used long enough gets
its own entry with its windows and groups, and short-lived apps of one name share an entry if there are
enough of them.
-/

namespace Kronical

/-- The orders in which `build_app_tree` iterates hash maps: the names of the short-lived apps, and for the
app at each position its windows and its ephemeral groups. -/
structure TreeOrder where
  names : IterOrder
  windows : Nat → IterOrder
  groups : Nat → IterOrder

/-- The readings of the clock from which the times of an app group are folded. -/
structure GroupClock where
  firstSeen : DateTime
  lastSeen : DateTime
  deriving DecidableEq, Repr

/-! ### Windows -/

def windowItem (w : WindowActivity) : SnapshotWindow :=
  { windowId := toString w.windowId, windowTitle := w.windowTitle, firstSeen := w.firstSeen,
    lastSeen := w.lastSeen, durationSeconds := w.durationSeconds, isGroup := false }

def average (total count : Nat) : Nat := if 0 < count then total / count else 0

def ephemeralItem (g : EphemeralGroup) : SnapshotWindow :=
  { windowId := "group:" ++ g.titleKey
    windowTitle := "(short-lived) ×" ++ toString g.distinctIds.card ++ " avg " ++
      prettyDur (average g.totalDurationSeconds g.occurrenceCount)
    firstSeen := g.firstSeen, lastSeen := g.lastSeen, durationSeconds := g.totalDurationSeconds
    isGroup := true }

/-- `DateTime::timestamp`. -/
def timestampSecs (t : DateTime) : Int := t / 1000000000

/-- The id under which a temporal group is shown. -/
def temporalId (titleKey : String) (timestamp : Int) (idx : Nat) : String :=
  "group-temporal:" ++ titleKey ++ ":" ++ toString timestamp ++ ":" ++ toString idx

def temporalItem (g : TemporalGroup) (idx : Nat) : SnapshotWindow :=
  { windowId := temporalId g.titleKey (timestampSecs g.anchorLastSeen) idx
    windowTitle := "(temporal locality) ×" ++ toString g.occurrenceCount ++ " avg " ++
      prettyDur (average g.totalDurationSeconds g.occurrenceCount) ++ " max " ++
      prettyDur g.maxDurationSeconds
    firstSeen := g.firstSeen, lastSeen := g.lastSeen, durationSeconds := g.totalDurationSeconds
    isGroup := true }

/-! ### Apps -/

/-- The windows and the groups of an app, before they are sorted. -/
def windowItems (order : TreeOrder) (position : Nat) (agg : AggregatedActivity) : List SnapshotWindow :=
  (agg.windows.iter (order.windows position)).map (fun w => windowItem w.2) ++
    (agg.ephemeralGroups.iter (order.groups position)).map (fun g => ephemeralItem g.2) ++
    agg.temporalGroups.zipIdx.map fun g => temporalItem g.1 g.2

def ownItem (order : TreeOrder) (position : Nat) (agg : AggregatedActivity) : SnapshotApp :=
  { appName := agg.appName, pid := agg.pid, processStartTime := agg.processStartTime
    windows := Recency.sortDesc SnapshotWindow.lastSeen (windowItems order position agg)
    totalDurationSecs := agg.totalDurationSeconds
    totalDurationPretty := prettyDur agg.totalDurationSeconds }

/-- What is folded over the members of an app group. -/
structure GroupFold where
  total : Nat
  firstSeen : DateTime
  lastSeen : DateTime
  repPid : Int
  repStart : Nat
  maxDur : Nat
  deriving DecidableEq, Repr

def GroupFold.new (clock : GroupClock) : GroupFold :=
  { total := 0, firstSeen := clock.firstSeen, lastSeen := clock.lastSeen, repPid := 0, repStart := 0,
    maxDur := 0 }

def GroupFold.add (self : GroupFold) (agg : AggregatedActivity) : GroupFold :=
  { total := saturatingAdd self.total agg.totalDurationSeconds
    firstSeen := if agg.firstSeen < self.firstSeen then agg.firstSeen else self.firstSeen
    lastSeen := if self.lastSeen < agg.lastSeen then agg.lastSeen else self.lastSeen
    repPid := if self.maxDur < agg.totalDurationSeconds then agg.pid else self.repPid
    repStart := if self.maxDur < agg.totalDurationSeconds then agg.processStartTime else self.repStart
    maxDur := max self.maxDur agg.totalDurationSeconds }

/-- The id under which an app group is shown. -/
def appGroupId (name : String) : String := "app-group:" ++ name

def groupItem (clock : GroupClock) (name : String) (members : List AggregatedActivity) : SnapshotApp :=
  let folded := members.foldl GroupFold.add (.new clock)
  { appName := name, pid := folded.repPid, processStartTime := folded.repStart
    windows :=
      [{ windowId := appGroupId name
         windowTitle := "×" ++ toString members.length ++ " avg " ++
           prettyDur (average folded.total members.length)
         firstSeen := folded.firstSeen, lastSeen := folded.lastSeen, durationSeconds := folded.total
         isGroup := true }]
    totalDurationSecs := folded.total, totalDurationPretty := prettyDur folded.total }

/-! ### The tree -/

/-- What `build_app_tree` compares apps with. -/
structure AppThresholds where
  appShortMaxDurationSecs : Nat
  appShortMinDistinct : Nat
  deriving DecidableEq, Repr

def AppThresholds.isShort (self : AppThresholds) (agg : AggregatedActivity) : Bool :=
  agg.totalDurationSeconds ≤ self.appShortMaxDurationSecs

/-- The short-lived apps by their names. -/
def shortPerName (thresholds : AppThresholds) (activities : List AggregatedActivity) :
    HashMap String (List AggregatedActivity) :=
  HashMap.tally (fun _ => []) (fun v agg => v ++ [agg]) (·.appName)
    (activities.filter thresholds.isShort)

def ownItems (order : TreeOrder) (thresholds : AppThresholds) (activities : List AggregatedActivity) :
    List SnapshotApp :=
  (activities.filter (!thresholds.isShort ·)).zipIdx.map fun agg => ownItem order agg.2 agg.1

/-- The names with enough short-lived apps, and these. -/
def shownGroups (order : TreeOrder) (thresholds : AppThresholds) (activities : List AggregatedActivity) :
    List (String × List AggregatedActivity) :=
  ((shortPerName thresholds activities).iter order.names).filter
    fun group => thresholds.appShortMinDistinct ≤ group.2.length

/-- When the first of the app's windows was last seen. -/
def firstWindowSeen (app : SnapshotApp) : DateTime := (app.windows.head?.map (·.lastSeen)).getD 0

def buildAppTree (order : TreeOrder) (clock : String → GroupClock)
    (activities : List AggregatedActivity) (thresholds : AppThresholds) : List SnapshotApp :=
  Recency.sortDesc firstWindowSeen
    (ownItems order thresholds activities ++
      (shownGroups order thresholds activities).map fun group => groupItem (clock group.1) group.1 group.2)

theorem buildAppTree_perm (order : TreeOrder) (clock : String → GroupClock)
    (activities : List AggregatedActivity) (thresholds : AppThresholds) :
    (buildAppTree order clock activities thresholds).Perm
      (ownItems order thresholds activities ++
        (shownGroups order thresholds activities).map
          fun group => groupItem (clock group.1) group.1 group.2) :=
  Recency.sortDesc_perm _ _

end Kronical
