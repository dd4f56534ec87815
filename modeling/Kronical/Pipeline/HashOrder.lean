import Kronical.Core.OrderFree
import Kronical.Pipeline.AppGroups

/-!
# Snapshots in any order of hash maps

The windows and groups that a snapshot shows for an app depend on the orders in which hash maps are iterated
in three ways: the id of a temporal group has its place in the list of groups in it, which follows the order
of the titles; of windows that were last seen at one time, the order decides which are trimmed; and of
short-lived apps of one name that were used equally long and last seen at one time, it decides which one
stands for the group. Where none of these occurs, the snapshot does not depend on the orders
(`same_windows_iff`).
-/

namespace Kronical

/-! ### Ids of windows -/

theorem colon_notMem_nat (n : Nat) : ':' ∉ (toString n).toList := fun h =>
  absurd (isDigit_of_mem_toString h) (by decide)

theorem colon_notMem_int (i : Int) : ':' ∉ (toString i).toList := by
  cases i with
  | ofNat n => exact colon_notMem_nat n
  | negSucc n =>
    have htext : (toString (Int.negSucc n)).toList = '-' :: (toString (n + 1)).toList :=
      String.toList_append ..
    rw [htext, List.mem_cons]
    rintro (h | h)
    · exact absurd h (by decide)
    · exact colon_notMem_nat (n + 1) h

theorem split_last_colon {s s' t t' : String} (h : s ++ ":" ++ t = s' ++ ":" ++ t') (ht : ':' ∉ t.toList)
    (ht' : ':' ∉ t'.toList) : s = s' ∧ t = t' := by
  have hlist : s.toList ++ ':' :: t.toList = s'.toList ++ ':' :: t'.toList := by
    have := congrArg String.toList h
    simpa [String.toList_append] using this
  rcases List.append_eq_append_iff.mp hlist with ⟨rest, hs, hrest⟩ | ⟨rest, hs, hrest⟩
  · cases rest with
    | nil =>
      refine ⟨String.toList_injective (by simpa using hs.symm), String.toList_injective ?_⟩
      simpa using hrest
    | cons c rest =>
      obtain ⟨-, htail⟩ := List.cons.inj hrest
      exact absurd (by simp [htail]) ht
  · cases rest with
    | nil =>
      refine ⟨String.toList_injective (by simpa using hs), String.toList_injective ?_⟩
      simpa using hrest.symm
    | cons c rest =>
      obtain ⟨-, htail⟩ := List.cons.inj hrest
      exact absurd (by simp [htail]) ht'

theorem temporalId_injective {titleKey titleKey' : String} {timestamp timestamp' : Int} {idx idx' : Nat}
    (h : temporalId titleKey timestamp idx = temporalId titleKey' timestamp' idx') :
    titleKey = titleKey' ∧ idx = idx' := by
  obtain ⟨hfront, hidx⟩ := split_last_colon h (colon_notMem_nat idx) (colon_notMem_nat idx')
  obtain ⟨hfront, -⟩ := split_last_colon hfront (colon_notMem_int timestamp) (colon_notMem_int timestamp')
  refine ⟨String.toList_injective ?_, toString_nat_injective hidx⟩
  have htitles := congrArg String.toList hfront
  rw [String.toList_append, String.toList_append] at htitles
  exact List.append_cancel_left htitles

theorem ephemeralId_ne_temporalId (titleKey titleKey' : String) (timestamp : Int) (idx : Nat) :
    "group:" ++ titleKey ≠ temporalId titleKey' timestamp idx := by
  obtain ⟨rest, hrest⟩ : ∃ rest, temporalId titleKey' timestamp idx = "group-temporal:" ++ rest := by
    refine ⟨titleKey' ++ (":" ++ (toString timestamp ++ (":" ++ toString idx))), ?_⟩
    unfold temporalId
    rw [String.append_assoc, String.append_assoc, String.append_assoc, String.append_assoc]
  intro h
  have hgroup : (("group:" ++ titleKey).toList).take 6 = ['g', 'r', 'o', 'u', 'p', ':'] := by
    simp [String.toList_append]
  have htemporal : (("group-temporal:" ++ rest).toList).take 6 = ['g', 'r', 'o', 'u', 'p', '-'] := by
    simp [String.toList_append]
  rw [h, hrest, htemporal] at hgroup
  simp at hgroup

theorem windowItem_id_ne_group (w : WindowActivity) {s : String} (hs : s.toList.head? = some 'g') :
    (windowItem w).windowId ≠ s := by
  rintro rfl
  exact absurd (isDigit_of_mem_toString (List.mem_of_mem_head? hs)) (by decide)

/-! ### What an app shows -/

/-- The app's own entry shows the window, or the group, in any order. -/
def Shows (agg : AggregatedActivity) (w : SnapshotWindow) : Prop :=
  (∃ entry ∈ agg.windows.pairs, windowItem entry.2 = w) ∨
    (∃ g ∈ agg.ephemeralGroups.pairs, ephemeralItem g.2 = w) ∨
    ∃ g ∈ agg.temporalGroups.zipIdx, temporalItem g.1 g.2 = w

theorem mem_ownItem_windows {order : TreeOrder} {position : Nat} {agg : AggregatedActivity}
    {w : SnapshotWindow} : w ∈ (ownItem order position agg).windows ↔ Shows agg w := by
  show w ∈ Recency.sortDesc SnapshotWindow.lastSeen (windowItems order position agg) ↔ _
  rw [(Recency.sortDesc_perm _ _).mem_iff]
  simp only [windowItems, List.mem_append, List.mem_map, HashMap.iter_perm.mem_iff, or_assoc]
  rfl

theorem Shows.ne_appGroupId {agg : AggregatedActivity} {w : SnapshotWindow} (h : Shows agg w)
    (name : String) : w.windowId ≠ appGroupId name := by
  have order : TreeOrder := ⟨.ofEntries, fun _ => .ofEntries, fun _ => .ofEntries⟩
  have hmem : w ∈ (ownItem order 0 agg).windows := mem_ownItem_windows.mpr h
  exact windowId_ne_appGroupId ((Recency.sortDesc_perm _ _).mem_iff.mp hmem) name

namespace AggregatedActivity

variable {toLowercase : String → String} {thresholds : Thresholds} (agg : AggregatedActivity)

theorem shows_congr (hnone : agg.ephemeralGroups = ∅) (htitle : agg.OneTitle toLowercase thresholds)
    (htie : agg.NoTie toLowercase thresholds) (order order' : MapSite → IterOrder) (w : SnapshotWindow) :
    Shows (agg.group toLowercase thresholds order) w ↔
      Shows (agg.group toLowercase thresholds order') w := by
  unfold Shows
  rw [agg.temporalGroups_eq order htitle order']
  simp only [agg.mem_group_windows _ htie,
    (agg.ephemeralGroups_perm toLowercase thresholds order hnone order').mem_iff]

end AggregatedActivity

/-! ### Snapshots -/

/-- The orders in which all hash maps are iterated. -/
structure HashOrder where
  aggregate : AggregateOrder
  tree : TreeOrder

section Snapshots

variable (toLowercase : String → String) (order : HashOrder) (clock : String → GroupClock)
  (records : List ActivityRecord) (since now : DateTime) (thresholds : Thresholds)
  (appThresholds : AppThresholds)

/-- The apps of a snapshot: the records are aggregated and then arranged in a tree. -/
def snapshotApps : List SnapshotApp :=
  buildAppTree order.tree clock
    (aggregateActivitiesSince toLowercase order.aggregate records since now thresholds) appThresholds

/-- The windows and groups that are shown for an app. -/
def windowsOf (tree : List SnapshotApp) (appName : String) (pid : Int) (processStartTime : Nat) :
    Set SnapshotWindow :=
  {w | ∃ item ∈ tree, item.appName = appName ∧ item.pid = pid ∧
    item.processStartTime = processStartTime ∧ w ∈ item.windows}

/-- The apps, before their windows are grouped. -/
def appsOf : List AggregatedActivity := (appMap records since now).pairs.map (·.2)

/-- The apps from the one that was last seen on. -/
def latestApps (apps : IterOrder) : List AggregatedActivity :=
  Recency.sortDesc AggregatedActivity.lastSeen (((appMap records since now).iter apps).map (·.2))

theorem latestApps_perm (apps : IterOrder) :
    (latestApps records since now apps).Perm (appsOf records since now) :=
  (Recency.sortDesc_perm _ _).trans (HashMap.iter_perm.map _)

theorem appsOf_keys_nodup : ((appsOf records since now).map AggregatedActivity.key).Nodup := by
  have hkeys : (appsOf records since now).map AggregatedActivity.key =
      (appMap records since now).pairs.map (·.1) := by
    rw [appsOf, List.map_map]
    exact List.map_congr_left fun app happ => (ofSpans_of_mem happ).key
  rw [hkeys]
  exact HashMap.keys_nodup _

theorem eq_of_key {app app' : AggregatedActivity} (h : app ∈ appsOf records since now)
    (h' : app' ∈ appsOf records since now) (hpid : app.pid = app'.pid)
    (hstart : app.processStartTime = app'.processStartTime) : app = app' := by
  have hkey : app.key = app'.key := by rw [AggregatedActivity.key, AggregatedActivity.key, hpid, hstart]
  exact List.inj_on_of_nodup_map (appsOf_keys_nodup records since now) h h' hkey

variable {records since now}

/-- The app with its windows grouped. -/
def grouped (app : AggregatedActivity) : AggregatedActivity :=
  app.group toLowercase thresholds (order.aggregate.inApp app.key)

theorem grouped_leaves (app : AggregatedActivity) : grouped toLowercase order thresholds app =
    { app with
      windows := (grouped toLowercase order thresholds app).windows
      ephemeralGroups := (grouped toLowercase order thresholds app).ephemeralGroups
      temporalGroups := (grouped toLowercase order thresholds app).temporalGroups } :=
  app.group_leaves

@[simp] theorem isShort_grouped (app : AggregatedActivity) :
    appThresholds.isShort (grouped toLowercase order thresholds app) = appThresholds.isShort app := by
  rw [grouped_leaves]
  rfl

@[simp] theorem appName_grouped (app : AggregatedActivity) :
    (grouped toLowercase order thresholds app).appName = app.appName := by
  rw [grouped_leaves]

@[simp] theorem add_grouped (s : GroupFold) (app : AggregatedActivity) :
    s.add (grouped toLowercase order thresholds app) = s.add app := by
  rw [grouped_leaves]
  rfl

theorem ownItem_grouped (position : Nat) (app : AggregatedActivity) :
    let item := ownItem order.tree position (grouped toLowercase order thresholds app)
    item.appName = app.appName ∧ item.pid = app.pid ∧ item.processStartTime = app.processStartTime := by
  rw [grouped_leaves]
  exact ⟨rfl, rfl, rfl⟩

variable (records since now)

theorem aggregate_eq :
    aggregateActivitiesSince toLowercase order.aggregate records since now thresholds =
      (latestApps records since now order.aggregate.apps).map (grouped toLowercase order thresholds) := by
  have hlast : AggregatedActivity.lastSeen = fun app : AggregatedActivity =>
      (grouped toLowercase order thresholds app).lastSeen := by
    funext app
    rw [grouped_leaves]
  rw [latestApps, hlast, Recency.map_sortDesc AggregatedActivity.lastSeen, List.map_map]
  refine congrArg (Recency.sortDesc AggregatedActivity.lastSeen) (List.map_congr_left fun app happ => ?_)
  rw [Function.comp_apply, grouped, (ofSpans_of_mem (HashMap.iter_perm.mem_iff.mp happ)).key]

/-- The short-lived apps of a name, from the one that was last seen on. -/
def latestShort (apps : IterOrder) (name : String) : List AggregatedActivity :=
  shortOf appThresholds (latestApps records since now apps) name

theorem latestShort_perm (apps : IterOrder) (name : String) :
    (latestShort records since now appThresholds apps name).Perm
      (shortOf appThresholds (appsOf records since now) name) :=
  ((latestApps_perm records since now apps).filter _).filter _

theorem latestShort_sorted (apps : IterOrder) (name : String) :
    Recency.Sorted AggregatedActivity.lastSeen (latestShort records since now appThresholds apps name) :=
  (Recency.sortDesc_sorted _ _).sublist (List.filter_sublist.trans List.filter_sublist)

theorem rep_latestShort (apps : IterOrder) (clock : GroupClock) (name : String) :
    ((groupItem clock name (latestShort records since now appThresholds apps name)).pid,
        (groupItem clock name (latestShort records since now appThresholds apps name)).processStartTime) =
      ((candidates (latestShort records since now appThresholds apps name)).head?.map
        fun agg => (agg.pid, agg.processStartTime)).getD (0, 0) :=
  rep_of_sorted (latestShort_sorted records since now appThresholds apps name) clock name

theorem candidates_ofEntries (name : String) :
    candidates (latestShort records since now appThresholds .ofEntries name) =
      candidates (shortOf appThresholds (appsOf records since now) name) :=
  candidates_sortDesc appThresholds _ name

theorem candidates_backwards (name : String) :
    candidates (latestShort records since now appThresholds .backwards name) =
      (candidates (shortOf appThresholds (appsOf records since now) name)).reverse := by
  have hshort : shortOf appThresholds ((appsOf records since now).reverse) name =
      (shortOf appThresholds (appsOf records since now) name).reverse := by
    rw [shortOf, List.filter_reverse, List.filter_reverse]
    rfl
  rw [latestShort, latestApps, candidates_sortDesc, HashMap.iter, IterOrder.backwards_apply,
    List.map_reverse, ← candidates_reverse, ← hshort]
  rfl

theorem shortOf_aggregate (name : String) :
    shortOf appThresholds
        (aggregateActivitiesSince toLowercase order.aggregate records since now thresholds) name =
      (latestShort records since now appThresholds order.aggregate.apps name).map
        (grouped toLowercase order thresholds) := by
  rw [aggregate_eq, latestShort, shortOf, shortOf, List.filter_map, List.filter_map]
  congr 1
  simp [List.filter_filter, Function.comp_def]

theorem groupItem_grouped (members : List AggregatedActivity) (clock : GroupClock) (name : String) :
    groupItem clock name (members.map (grouped toLowercase order thresholds)) =
      groupItem clock name members := by
  simp only [groupItem, List.foldl_map, add_grouped, List.length_map]

variable {toLowercase order clock records since now thresholds appThresholds}

theorem cases_snapshotApps {item : SnapshotApp}
    (h : item ∈ snapshotApps toLowercase order clock records since now thresholds appThresholds) :
    (∃ app ∈ appsOf records since now, appThresholds.isShort app = false ∧
        ∃ position, item = ownItem order.tree position (grouped toLowercase order thresholds app)) ∨
      ∃ name members, members = latestShort records since now appThresholds order.aggregate.apps name ∧
        (members ≠ [] ∧ appThresholds.appShortMinDistinct ≤ members.length) ∧
          item = groupItem (clock name) name members := by
  by_cases hgroup : IsAppGroup item
  · right
    obtain ⟨⟨name, members⟩, hshown, rfl⟩ := mem_tree_group h hgroup
    obtain ⟨hmembers, hne, hmin⟩ := mem_shownGroups.mp hshown
    rw [shortOf_aggregate] at hmembers
    subst hmembers
    rw [List.length_map] at hmin
    exact ⟨name, _, rfl, ⟨mt (fun h => by rw [h, List.map_nil]) hne, hmin⟩, groupItem_grouped ..⟩
  · left
    obtain ⟨agg, hagg, hshort, hitem⟩ := mem_tree_own h hgroup
    rw [aggregate_eq] at hagg
    obtain ⟨app, happ, rfl⟩ := List.mem_map.mp hagg
    rw [isShort_grouped] at hshort
    exact ⟨app, (latestApps_perm _ _ _ _).mem_iff.mp happ, hshort, hitem⟩

theorem ownItem_mem_snapshotApps {app : AggregatedActivity} (happ : app ∈ appsOf records since now)
    (hshort : appThresholds.isShort app = false) :
    ∃ position, ownItem order.tree position (grouped toLowercase order thresholds app) ∈
      snapshotApps toLowercase order clock records since now thresholds appThresholds := by
  refine ownItem_mem_tree ?_ ((isShort_grouped ..).trans hshort)
  rw [aggregate_eq]
  exact List.mem_map_of_mem ((latestApps_perm _ _ _ _).mem_iff.mpr happ)

theorem groupItem_mem_snapshotApps {name : String}
    (hne : latestShort records since now appThresholds order.aggregate.apps name ≠ [])
    (hmin : appThresholds.appShortMinDistinct ≤
      (latestShort records since now appThresholds order.aggregate.apps name).length) :
    groupItem (clock name) name (latestShort records since now appThresholds order.aggregate.apps name) ∈
      snapshotApps toLowercase order clock records since now thresholds appThresholds := by
  have hshown : (name, (latestShort records since now appThresholds order.aggregate.apps name).map
      (grouped toLowercase order thresholds)) ∈ shownGroups order.tree appThresholds
        (aggregateActivitiesSince toLowercase order.aggregate records since now thresholds) :=
    mem_shownGroups.mpr ⟨(shortOf_aggregate ..).symm, mt List.map_eq_nil_iff.mp hne,
      by rwa [List.length_map]⟩
  rw [← groupItem_grouped toLowercase order thresholds]
  exact groupItem_mem_tree hshown

theorem mem_windowsOf {name : String} {pid : Int} {start : Nat} {w : SnapshotWindow} :
    w ∈ windowsOf (snapshotApps toLowercase order clock records since now thresholds appThresholds)
        name pid start ↔
      (∃ app ∈ appsOf records since now, appThresholds.isShort app = false ∧
        (app.appName = name ∧ app.pid = pid ∧ app.processStartTime = start) ∧
          Shows (grouped toLowercase order thresholds app) w) ∨
      ∃ members, members = latestShort records since now appThresholds order.aggregate.apps name ∧
        (members ≠ [] ∧ appThresholds.appShortMinDistinct ≤ members.length) ∧
        (groupItem (clock name) name members).pid = pid ∧
        (groupItem (clock name) name members).processStartTime = start ∧
          w ∈ (groupItem (clock name) name members).windows := by
  constructor
  · rintro ⟨item, hitem, hname, hpid, hstart, hw⟩
    rcases cases_snapshotApps hitem with ⟨app, happ, hshort, position, rfl⟩ | ⟨_, _, rfl, hmin, rfl⟩
    · left
      rw [← hname, ← hpid, ← hstart]
      obtain ⟨h, h', h''⟩ := ownItem_grouped toLowercase order thresholds position app
      exact ⟨app, happ, hshort, ⟨h.symm, h'.symm, h''.symm⟩, mem_ownItem_windows.mp hw⟩
    · right
      subst hname
      exact ⟨_, rfl, hmin, hpid, hstart, hw⟩
  · rintro (⟨app, happ, hshort, ⟨rfl, rfl, rfl⟩, hw⟩ | ⟨members, rfl, ⟨hne, hmin⟩, hpid, hstart, hw⟩)
    · obtain ⟨position, hitem⟩ := ownItem_mem_snapshotApps happ hshort
      obtain ⟨h, h', h''⟩ := ownItem_grouped toLowercase order thresholds position app
      exact ⟨_, hitem, h, h', h'', mem_ownItem_windows.mpr hw⟩
    · exact ⟨_, groupItem_mem_snapshotApps hne hmin, rfl, hpid, hstart, hw⟩

/-! ### When the orders do not matter -/

/-- An app with an entry of its own has temporal groups of one title and no tie at the cut, and one of the
members of each app group was used longer, or seen later, than the others. -/
structure OrderFree (toLowercase : String → String) (records : List ActivityRecord) (since now : DateTime)
    (thresholds : Thresholds) (appThresholds : AppThresholds) : Prop where
  oneTitle : ∀ app ∈ appsOf records since now, appThresholds.isShort app = false →
    app.OneTitle toLowercase thresholds
  noTie : ∀ app ∈ appsOf records since now, appThresholds.isShort app = false →
    app.NoTie toLowercase thresholds
  oneCandidate : ∀ app ∈ appsOf records since now, appThresholds.isShort app = true →
    appThresholds.appShortMinDistinct ≤
        (shortOf appThresholds (appsOf records since now) app.appName).length →
      OneCandidate (shortOf appThresholds (appsOf records since now) app.appName)

theorem ephemeralGroups_appsOf {app : AggregatedActivity} (h : app ∈ appsOf records since now) :
    app.ephemeralGroups = ∅ := by
  obtain ⟨entry, hentry, rfl⟩ := List.mem_map.mp h
  exact (ofSpans_of_mem hentry).ephemeralGroups

theorem eq_of_windowId {app : AggregatedActivity} (happ : app ∈ appsOf records since now)
    {entry entry' : WindowEntry} (h : entry ∈ app.windows.pairs) (h' : entry' ∈ app.windows.pairs)
    (hid : entry.2.windowId = entry'.2.windowId) : entry = entry' := by
  obtain ⟨⟨key, app⟩, hkey, rfl⟩ := List.mem_map.mp happ
  have hspans := ofSpans_of_mem hkey
  rw [hspans.windowId h, hspans.windowId h'] at hid
  exact List.inj_on_of_nodup_map app.windows.keys_nodup h h' hid

theorem windowsOf_sub (h : OrderFree toLowercase records since now thresholds appThresholds)
    (order order' : HashOrder) (name : String) (pid : Int) (start : Nat) :
    windowsOf (snapshotApps toLowercase order clock records since now thresholds appThresholds)
        name pid start ⊆
      windowsOf (snapshotApps toLowercase order' clock records since now thresholds appThresholds)
        name pid start := by
  intro w hw
  rw [mem_windowsOf] at hw ⊢
  rcases hw with ⟨app, happ, hshort, hkey, hshows⟩ | ⟨members, rfl, ⟨hne, hmin⟩, hpid, hstart, hw⟩
  · left
    refine ⟨app, happ, hshort, hkey, ?_⟩
    exact (app.shows_congr (ephemeralGroups_appsOf happ) (h.oneTitle app happ hshort)
      (h.noTie app happ hshort) _ _ w).mp hshows
  · right
    set base := shortOf appThresholds (appsOf records since now) name
    have hperm := latestShort_perm records since now appThresholds order.aggregate.apps name
    have hperm' := latestShort_perm records since now appThresholds order'.aggregate.apps name
    have hboth := hperm.trans hperm'.symm
    -- The same member stands for the group.
    have hone : OneCandidate base := by
      obtain ⟨app, happ⟩ := List.exists_mem_of_ne_nil _ hne
      obtain ⟨happ, hname⟩ := List.mem_filter.mp (hperm.mem_iff.mp happ)
      obtain ⟨hmem, hshort⟩ := List.mem_filter.mp happ
      have happName : app.appName = name := of_decide_eq_true hname
      have hcandidate := h.oneCandidate app hmem hshort
      rw [happName] at hcandidate
      exact hcandidate (hperm.length_eq ▸ hmin)
    have hhead := head?_candidates hboth ((oneCandidate_congr hperm).mpr hone)
    have hrep := rep_latestShort records since now appThresholds order.aggregate.apps (clock name) name
    have hrep' := rep_latestShort records since now appThresholds order'.aggregate.apps (clock name) name
    rw [← hhead, ← hrep] at hrep'
    obtain ⟨hpid', hstart'⟩ := Prod.mk.inj hrep'
    refine ⟨_, rfl, ⟨?_, ?_⟩, hpid'.trans hpid, hstart'.trans hstart, ?_⟩
    · exact fun hnil => hne (List.Perm.eq_nil (hnil ▸ hboth))
    · rwa [← hboth.length_eq]
    · rwa [← groupItem_windows_perm hboth]

/-! ### When they do -/

/-- One order for the map of apps, and orders for the maps of every app. -/
def HashOrder.of (apps : IterOrder) (inApp : MapSite → IterOrder) : HashOrder :=
  ⟨⟨apps, fun _ => inApp⟩, ⟨.ofEntries, fun _ => .ofEntries, fun _ => .ofEntries⟩⟩

variable (toLowercase clock records since now thresholds appThresholds) in
/-- The same is shown for each app in any two orders. -/
def SameWindows : Prop :=
  ∀ order order' name pid start,
    windowsOf (snapshotApps toLowercase order clock records since now thresholds appThresholds)
        name pid start =
      windowsOf (snapshotApps toLowercase order' clock records since now thresholds appThresholds)
        name pid start

theorem id_of_mem_groupItem {clock : GroupClock} {name : String} {members : List AggregatedActivity}
    {w : SnapshotWindow} (h : w ∈ (groupItem clock name members).windows) :
    w.windowId = appGroupId name := by
  rw [List.mem_singleton.mp h]

section Same

variable (hsame : SameWindows toLowercase clock records since now thresholds appThresholds)

include hsame

theorem oneCandidate_of_same (name : String)
    (hmin : appThresholds.appShortMinDistinct ≤
      (shortOf appThresholds (appsOf records since now) name).length) :
    OneCandidate (shortOf appThresholds (appsOf records since now) name) := by
  set base := shortOf appThresholds (appsOf records since now) name
  have hnodup : (candidates base).Nodup :=
    (((appsOf_keys_nodup records since now).of_map.filter _).filter _).filter _
  have hbase : ∀ agg ∈ candidates base, agg ∈ appsOf records since now := fun agg hagg =>
    (List.mem_filter.mp (List.mem_filter.mp (List.mem_filter.mp hagg).1).1).1
  intro agg hagg other hother
  obtain ⟨first, hfirst⟩ := Option.isSome_iff_exists.mp
    (List.isSome_head?.mpr (List.ne_nil_of_mem hagg))
  obtain ⟨last, hlast⟩ := Option.isSome_iff_exists.mp
    (List.getLast?_isSome.mpr (List.ne_nil_of_mem hagg))
  have hrep := rep_latestShort records since now appThresholds .ofEntries (clock name) name
  have hrep' := rep_latestShort records since now appThresholds .backwards (clock name) name
  rw [candidates_ofEntries, hfirst] at hrep
  rw [candidates_backwards, List.head?_reverse, hlast] at hrep'
  obtain ⟨hpid, hstart⟩ := Prod.mk.inj hrep
  obtain ⟨hpid', hstart'⟩ := Prod.mk.inj hrep'
  -- The group is shown for the first candidate, and so the last one is the same app.
  have hperm := latestShort_perm records since now appThresholds .ofEntries name
  have hne : latestShort records since now appThresholds .ofEntries name ≠ [] := by
    intro hnil
    rw [hnil] at hperm
    rw [show base = [] from hperm.nil_eq.symm] at hagg
    cases hagg
  set shown := (groupItem (clock name) name
    (latestShort records since now appThresholds .ofEntries name)).windows.head (List.cons_ne_nil _ _)
  have hshown : shown ∈ windowsOf (snapshotApps toLowercase (.of .ofEntries fun _ => .ofEntries) clock
      records since now thresholds appThresholds) name first.pid first.processStartTime :=
    mem_windowsOf.mpr (Or.inr ⟨_, rfl, ⟨hne, hperm.length_eq ▸ hmin⟩, hpid, hstart, List.head_mem _⟩)
  rw [hsame _ (.of .backwards fun _ => .ofEntries)] at hshown
  rcases mem_windowsOf.mp hshown with ⟨app, -, -, -, hshows⟩ | ⟨members, rfl, -, hpid'', hstart'', -⟩
  · exact absurd rfl (hshows.ne_appGroupId name)
  · have hsingle : candidates base = [first] := by
      refine HashMap.eq_singleton hnodup hfirst (hlast.trans (congrArg some ?_))
      exact eq_of_key records since now (hbase last (List.mem_of_mem_getLast? hlast))
        (hbase first (List.mem_of_mem_head? hfirst)) (hpid'.symm.trans hpid'')
        (hstart'.symm.trans hstart'')
    rw [hsingle, List.mem_singleton] at hagg hother
    rw [hagg, hother]

variable {app : AggregatedActivity} (happ : app ∈ appsOf records since now)

include happ

theorem shows_of_same (hshort : appThresholds.isShort app = false) (order order' : MapSite → IterOrder)
    {w : SnapshotWindow} (hw : Shows (app.group toLowercase thresholds order) w) :
    Shows (app.group toLowercase thresholds order') w := by
  have hshown : w ∈ windowsOf (snapshotApps toLowercase (.of .ofEntries order) clock records since now
      thresholds appThresholds) app.appName app.pid app.processStartTime :=
    mem_windowsOf.mpr (Or.inl ⟨app, happ, hshort, ⟨rfl, rfl, rfl⟩, hw⟩)
  rw [hsame _ (.of .ofEntries order')] at hshown
  rcases mem_windowsOf.mp hshown with ⟨app', happ', -, ⟨-, hpid, hstart⟩, hw'⟩ | ⟨members, -, -, -, -, hw'⟩
  · rw [eq_of_key records since now happ' happ hpid hstart] at hw'
    exact hw'
  · exact absurd (id_of_mem_groupItem hw') (hw.ne_appGroupId _)

theorem oneTitle_of_same (hshort : appThresholds.isShort app = false) :
    app.OneTitle toLowercase thresholds := by
  by_contra h
  obtain ⟨order, order', g, hg, hother⟩ := app.exists_temporalGroups_ne h
  have hfirst : (g, 0) ∈ (app.group toLowercase thresholds order).temporalGroups.zipIdx := by
    rw [List.mk_mem_zipIdx_iff_getElem?, ← List.head?_eq_getElem?]
    exact hg
  have hshows := shows_of_same hsame happ hshort order order' (w := temporalItem g 0)
    (Or.inr (Or.inr ⟨(g, 0), hfirst, rfl⟩))
  rcases hshows with ⟨entry, -, heq⟩ | ⟨g', -, heq⟩ | ⟨⟨g', idx⟩, hmem, heq⟩
  · exact windowItem_id_ne_group entry.2 (head_temporalId _ _ _) (congrArg SnapshotWindow.windowId heq)
  · exact ephemeralId_ne_temporalId _ _ _ _ (congrArg SnapshotWindow.windowId heq)
  · obtain ⟨htitle, hidx⟩ := temporalId_injective (congrArg SnapshotWindow.windowId heq)
    dsimp only at hidx
    subst hidx
    rw [List.mk_mem_zipIdx_iff_getElem?, ← List.head?_eq_getElem?] at hmem
    exact hother g' hmem htitle

theorem noTie_of_same (hshort : appThresholds.isShort app = false) :
    app.NoTie toLowercase thresholds := by
  by_contra h
  obtain ⟨order, order', entry, hkept, hdropped⟩ := app.exists_windows_ne h
  have hshows := shows_of_same hsame happ hshort order order' (w := windowItem entry.2)
    (Or.inl ⟨entry, hkept, rfl⟩)
  have hgroup : ∀ s : String, s.toList.head? = some 'g' → s ≠ (windowItem entry.2).windowId :=
    fun s hs heq => windowItem_id_ne_group entry.2 hs heq.symm
  rcases hshows with ⟨entry', hmem, heq⟩ | ⟨g, -, heq⟩ | ⟨g, -, heq⟩
  · have hid := toString_nat_injective (congrArg SnapshotWindow.windowId heq)
    obtain ⟨-, -, -, hleft, -⟩ :=
      app.group_lanes toLowercase thresholds order (ephemeralGroups_appsOf happ)
    obtain ⟨-, -, -, hleft', -⟩ :=
      app.group_lanes toLowercase thresholds order' (ephemeralGroups_appsOf happ)
    rw [eq_of_windowId happ (hleft' entry' hmem) (hleft entry hkept) hid] at hmem
    exact hdropped hmem
  · refine hgroup _ ?_ (congrArg SnapshotWindow.windowId heq)
    exact head_toList_append (show "group:".toList.head? = some 'g' from rfl) g.2.titleKey
  · exact hgroup _ (head_temporalId _ _ _) (congrArg SnapshotWindow.windowId heq)

end Same

end Snapshots

/-- For all records, all thresholds and instants, and all readings of the clock: any two orders in which the
hash maps are iterated show the same windows and groups for each app, exactly if each app with an entry of
its own has temporal groups of one title and no tie where its windows are trimmed, and each app group has
one candidate to stand for it. -/
theorem same_windows_iff (toLowercase : String → String) (clock : String → GroupClock)
    (records : List ActivityRecord) (since now : DateTime) (thresholds : Thresholds)
    (appThresholds : AppThresholds) :
    SameWindows toLowercase clock records since now thresholds appThresholds ↔
      OrderFree toLowercase records since now thresholds appThresholds :=
  ⟨fun hsame =>
      { oneTitle := fun _ happ hshort => oneTitle_of_same hsame happ hshort
        noTie := fun _ happ hshort => noTie_of_same hsame happ hshort
        oneCandidate := fun app _ _ hmin => oneCandidate_of_same hsame app.appName hmin },
    fun h order order' name pid start =>
      (windowsOf_sub h order order' name pid start).antisymm (windowsOf_sub h order' order name pid start)⟩

/-- Four windows of an editor, two of each title, each of them used for a second. -/
def editorRecords : List ActivityRecord :=
  [⟨1, none, 0, some 1000000000, .active, some (.sample "Editor" "a" 1), 0, []⟩,
    ⟨2, none, 1000000000, some 2000000000, .active, some (.sample "Editor" "a" 2), 0, []⟩,
    ⟨3, none, 2000000000, some 3000000000, .active, some (.sample "Editor" "b" 3), 0, []⟩,
    ⟨4, none, 3000000000, some 4000000000, .active, some (.sample "Editor" "b" 4), 0, []⟩]

/-- The apps of a snapshot of them. -/
def editorSnapshot (order : HashOrder) : List SnapshotApp :=
  snapshotApps id order (fun _ => ⟨0, 0⟩) editorRecords 0 5000000000 ⟨1, 2, 10⟩ ⟨1, 2⟩

/-- The group of the first title is shown under an id that follows the order of the titles. -/
theorem group_id_follows_order :
    ¬ SameWindows id (fun _ => ⟨0, 0⟩) editorRecords 0 5000000000 ⟨1, 2, 10⟩ ⟨1, 2⟩ := by
  set back : MapSite → IterOrder := fun site => if site = .byTitle then .backwards else .ofEntries
  have hforth : ∃ item ∈ editorSnapshot (.of .ofEntries fun _ => .ofEntries), item.appName = "Editor" ∧
      item.pid = 1 ∧ item.processStartTime = 1 ∧
        ∃ w ∈ item.windows, w.windowId = "group-temporal:a:2:0" := by decide
  have hback : ¬ ∃ item ∈ editorSnapshot (.of .ofEntries back), item.appName = "Editor" ∧
      item.pid = 1 ∧ item.processStartTime = 1 ∧
        ∃ w ∈ item.windows, w.windowId = "group-temporal:a:2:0" := by decide
  intro hsame
  obtain ⟨item, hitem, hname, hpid, hstart, w, hw, hid⟩ := hforth
  have hshown : w ∈ windowsOf (editorSnapshot (.of .ofEntries fun _ => .ofEntries)) "Editor" 1 1 :=
    ⟨item, hitem, hname, hpid, hstart, hw⟩
  rw [editorSnapshot, hsame _ (.of .ofEntries back)] at hshown
  obtain ⟨item, hitem, hname, hpid, hstart, hw⟩ := hshown
  exact hback ⟨item, hitem, hname, hpid, hstart, w, hw, hid⟩

end Kronical
