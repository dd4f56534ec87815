import Kronical.Lib.Folds
import Kronical.Pipeline.AppTree

/-!
# The apps that the tree represents

An app that was used long enough has an entry of its own, and a short-lived app is in the entry of its name,
if there is one: short-lived apps of a name with too few of them are in no entry, and their time is in no
total (`every_app_represented_iff`).
-/

namespace Kronical

/-! ### Ids of windows -/

theorem head_toList_append {s : String} {c : Char} (h : s.toList.head? = some c) (t : String) :
    (s ++ t).toList.head? = some c := by
  rw [String.toList_append, List.head?_append, h]
  rfl

theorem head_temporalId (titleKey : String) (timestamp : Int) (idx : Nat) :
    (temporalId titleKey timestamp idx).toList.head? = some 'g' := by
  have hword : "group-temporal:".toList.head? = some 'g' := rfl
  unfold temporalId
  iterate 5 apply head_toList_append
  exact hword

theorem windowId_ne_appGroupId {order : TreeOrder} {position : Nat} {agg : AggregatedActivity}
    {w : SnapshotWindow} (hw : w ∈ windowItems order position agg) (name : String) :
    w.windowId ≠ appGroupId name := by
  have hgroup : (appGroupId name).toList.head? = some 'a' :=
    head_toList_append (show "app-group:".toList.head? = some 'a' from rfl) name
  have hhead : w.windowId.toList.head? ≠ some 'a' := by
    simp only [windowItems, List.mem_append, List.mem_map] at hw
    rcases hw with (⟨entry, -, rfl⟩ | ⟨g, -, rfl⟩) | ⟨g, -, rfl⟩
    · -- A decimal number.
      intro h
      exact absurd (isDigit_of_mem_toString (List.mem_of_mem_head? h)) (by decide)
    · intro h
      have hword := head_toList_append (show "group:".toList.head? = some 'g' from rfl) g.2.titleKey
      exact absurd (Option.some.inj (hword.symm.trans h)) (by decide)
    · intro h
      exact absurd (Option.some.inj ((head_temporalId _ _ _).symm.trans h)) (by decide)
  exact fun h => hhead (h ▸ hgroup)

/-! ### Entries -/

/-- The entry is the app's own. -/
def ShowsApp (item : SnapshotApp) (agg : AggregatedActivity) : Prop :=
  ∃ order position, item = ownItem order position agg

/-- The entry is the group of these apps, which have its name. -/
def ShowsGroup (item : SnapshotApp) (members : List AggregatedActivity) : Prop :=
  (∀ agg ∈ members, agg.appName = item.appName) ∧
    ∃ clock, item = groupItem clock item.appName members

/-- Every app is represented once, by an entry of its own or in the group of its name, and every entry
represents an app or a group. -/
def Represents (tree : List SnapshotApp) (activities : List AggregatedActivity) : Prop :=
  ∃ (own : List (SnapshotApp × AggregatedActivity))
    (groups : List (SnapshotApp × List AggregatedActivity)),
    tree.Perm (own.map (·.1) ++ groups.map (·.1)) ∧
      activities.Perm (own.map (·.2) ++ groups.flatMap (·.2)) ∧
      (∀ entry ∈ own, ShowsApp entry.1 entry.2) ∧ ∀ entry ∈ groups, ShowsGroup entry.1 entry.2

/-- The entry has a window with the id of an app group. -/
def IsAppGroup (item : SnapshotApp) : Prop :=
  ∃ w ∈ item.windows, w.windowId = appGroupId item.appName

theorem not_isAppGroup_ownItem (order : TreeOrder) (position : Nat) (agg : AggregatedActivity) :
    ¬ IsAppGroup (ownItem order position agg) := by
  rintro ⟨w, hw, hid⟩
  exact windowId_ne_appGroupId ((Recency.sortDesc_perm _ _).mem_iff.mp hw) _ hid

theorem isAppGroup_groupItem (clock : GroupClock) (name : String) (members : List AggregatedActivity) :
    IsAppGroup (groupItem clock name members) :=
  ⟨_, List.mem_singleton_self _, rfl⟩

variable {order : TreeOrder} {clock : String → GroupClock} {activities : List AggregatedActivity}
  {thresholds : AppThresholds}

/-- The short-lived apps of a name. -/
def shortOf (thresholds : AppThresholds) (activities : List AggregatedActivity) (name : String) :
    List AggregatedActivity :=
  (activities.filter thresholds.isShort).filter (·.appName = name)

theorem lookup_shortPerName (name : String) :
    (shortPerName thresholds activities).lookup name =
      if shortOf thresholds activities name = [] then none
      else some (shortOf thresholds activities name) := by
  rw [shortPerName, HashMap.lookup_tally, HashMap.gather_append, List.map_id']
  rfl

theorem mem_shownGroups {name : String} {members : List AggregatedActivity} :
    (name, members) ∈ shownGroups order thresholds activities ↔
      members = shortOf thresholds activities name ∧ members ≠ [] ∧
        thresholds.appShortMinDistinct ≤ members.length := by
  rw [shownGroups, List.mem_filter, HashMap.mem_iter, lookup_shortPerName, decide_eq_true_iff]
  by_cases h : shortOf thresholds activities name = []
  · rw [if_pos h]
    refine iff_of_false (fun h => nomatch h.1) ?_
    rintro ⟨rfl, hne, -⟩
    exact hne h
  · rw [if_neg h, Option.some.injEq]
    constructor
    · rintro ⟨rfl, hmin⟩
      exact ⟨rfl, h, hmin⟩
    · rintro ⟨rfl, -, hmin⟩
      exact ⟨rfl, hmin⟩

theorem mem_tree_group {item : SnapshotApp} (h : item ∈ buildAppTree order clock activities thresholds)
    (hgroup : IsAppGroup item) :
    ∃ group ∈ shownGroups order thresholds activities,
      item = groupItem (clock group.1) group.1 group.2 := by
  rw [(buildAppTree_perm order clock activities thresholds).mem_iff] at h
  rcases List.mem_append.mp h with h | h
  · obtain ⟨agg, -, rfl⟩ := List.mem_map.mp h
    exact absurd hgroup (not_isAppGroup_ownItem _ _ _)
  · obtain ⟨group, hshown, rfl⟩ := List.mem_map.mp h
    exact ⟨group, hshown, rfl⟩

theorem mem_tree_own {item : SnapshotApp} (h : item ∈ buildAppTree order clock activities thresholds)
    (hgroup : ¬ IsAppGroup item) :
    ∃ agg ∈ activities, thresholds.isShort agg = false ∧ ∃ position, item = ownItem order position agg := by
  rw [(buildAppTree_perm order clock activities thresholds).mem_iff] at h
  rcases List.mem_append.mp h with h | h
  · obtain ⟨⟨agg, position⟩, hmem, rfl⟩ := List.mem_map.mp h
    have hagg := List.mem_filter.mp (List.fst_mem_of_mem_zipIdx hmem)
    exact ⟨agg, hagg.1, by simpa using hagg.2, position, rfl⟩
  · obtain ⟨group, -, rfl⟩ := List.mem_map.mp h
    exact absurd (isAppGroup_groupItem _ _ _) hgroup

theorem ownItem_mem_tree {agg : AggregatedActivity} (hagg : agg ∈ activities)
    (hshort : thresholds.isShort agg = false) :
    ∃ position, ownItem order position agg ∈ buildAppTree order clock activities thresholds := by
  have hmem : agg ∈ activities.filter (!thresholds.isShort ·) :=
    List.mem_filter.mpr ⟨hagg, by simp [hshort]⟩
  obtain ⟨position, hposition⟩ := List.mem_iff_getElem?.mp hmem
  refine ⟨position, (buildAppTree_perm order clock activities thresholds).mem_iff.mpr ?_⟩
  refine List.mem_append_left _ (List.mem_map.mpr ⟨(agg, position), ?_, rfl⟩)
  exact List.mk_mem_zipIdx_iff_getElem?.mpr hposition

theorem groupItem_mem_tree {group : String × List AggregatedActivity}
    (h : group ∈ shownGroups order thresholds activities) :
    groupItem (clock group.1) group.1 group.2 ∈ buildAppTree order clock activities thresholds :=
  (buildAppTree_perm order clock activities thresholds).mem_iff.mpr
    (List.mem_append_right _ (List.mem_map_of_mem h))

/-! ### Totals -/

theorem groupItem_total (clock : GroupClock) (name : String) {members : List AggregatedActivity}
    (hfits : (members.map (·.totalDurationSeconds)).sum < 2 ^ 64) :
    (groupItem clock name members).totalDurationSecs =
      (members.map (·.totalDurationSeconds)).sum := by
  have htotal : (members.foldl GroupFold.add (.new clock)).total =
      members.foldl (fun t agg => saturatingAdd t agg.totalDurationSeconds) 0 :=
    (List.foldl_hom GroupFold.total fun _ _ => rfl).symm
  refine htotal.trans ((Folds.saturating_eq (2 ^ 64 - 1) (fun agg : AggregatedActivity =>
    agg.totalDurationSeconds) members (Nat.zero_le _)).trans ?_)
  omega

/-! ### All apps -/

/-- Every short-lived app has enough of its name. -/
def EnoughOfName (thresholds : AppThresholds) (activities : List AggregatedActivity) : Prop :=
  ∀ agg ∈ activities, thresholds.isShort agg = true →
    thresholds.appShortMinDistinct ≤ (shortOf thresholds activities agg.appName).length

instance : Decidable (EnoughOfName thresholds activities) := inferInstanceAs (Decidable (∀ agg ∈ _, _))

theorem enoughOfName_of_represents
    (h : Represents (buildAppTree order clock activities thresholds) activities) :
    EnoughOfName thresholds activities := by
  obtain ⟨own, groups, htree, hactivities, hown, hgroups⟩ := h
  intro agg hagg hshort
  rcases List.mem_append.mp (hactivities.mem_iff.mp hagg) with hmem | hmem
  · -- An entry of its own has the total of an app that was used long enough.
    obtain ⟨entry, hentry, rfl⟩ := List.mem_map.mp hmem
    obtain ⟨order', position', hshows⟩ := hown entry hentry
    have hitem := htree.mem_iff.mpr (List.mem_append_left _ (List.mem_map_of_mem hentry))
    rw [hshows] at hitem
    obtain ⟨agg', -, hlong, position, heq⟩ := mem_tree_own hitem (not_isAppGroup_ownItem _ _ _)
    have htotal : entry.2.totalDurationSeconds = agg'.totalDurationSeconds :=
      congrArg SnapshotApp.totalDurationSecs heq
    rw [AppThresholds.isShort, ← htotal] at hlong
    exact absurd hshort (by simpa [AppThresholds.isShort] using hlong)
  · obtain ⟨entry, hentry, hmember⟩ := List.mem_flatMap.mp hmem
    obtain ⟨hnames, clock', hshows⟩ := hgroups entry hentry
    have hitem := htree.mem_iff.mpr (List.mem_append_right _ (List.mem_map_of_mem hentry))
    have hisGroup : IsAppGroup entry.1 := hshows ▸ isAppGroup_groupItem _ _ _
    obtain ⟨⟨name, v⟩, hshown, heq⟩ := mem_tree_group hitem hisGroup
    obtain ⟨hv, -, hmin⟩ := mem_shownGroups.mp hshown
    have hname : agg.appName = name := (hnames agg hmember).trans (congrArg SnapshotApp.appName heq)
    rw [hname, ← hv]
    exact hmin

theorem shownGroups_members (h : EnoughOfName thresholds activities) :
    ((shownGroups order thresholds activities).flatMap (·.2)).Perm
      (activities.filter thresholds.isShort) := by
  have hnodup : ((shownGroups order thresholds activities).map (·.1)).Nodup :=
    HashMap.iter_keys_nodup.sublist (List.filter_sublist.map _)
  have hgroups : (shownGroups order thresholds activities).flatMap (·.2) =
      ((shownGroups order thresholds activities).map (·.1)).flatMap (shortOf thresholds activities) := by
    rw [List.flatMap_map]
    exact List.flatMap_congr fun group hgroup => (mem_shownGroups.mp hgroup).1
  rw [hgroups]
  refine (HashMap.flatMap_filter_perm AggregatedActivity.appName hnodup _).trans (List.Perm.of_eq ?_)
  refine List.filter_eq_self.mpr fun agg hagg => decide_eq_true ?_
  obtain ⟨hmem, hshort⟩ := List.mem_filter.mp hagg
  have hself : agg ∈ shortOf thresholds activities agg.appName :=
    List.mem_filter.mpr ⟨hagg, decide_eq_true rfl⟩
  exact List.mem_map.mpr ⟨(agg.appName, shortOf thresholds activities agg.appName),
    mem_shownGroups.mpr ⟨rfl, List.ne_nil_of_mem hself, h agg hmem hshort⟩, rfl⟩

theorem represents_of_enoughOfName (h : EnoughOfName thresholds activities) :
    Represents (buildAppTree order clock activities thresholds) activities := by
  refine ⟨(activities.filter (!thresholds.isShort ·)).zipIdx.map
      fun agg => (ownItem order agg.2 agg.1, agg.1),
    (shownGroups order thresholds activities).map
      fun group => (groupItem (clock group.1) group.1 group.2, group.2), ?_, ?_, ?_, ?_⟩
  · refine (buildAppTree_perm order clock activities thresholds).trans (List.Perm.of_eq ?_)
    rw [List.map_map, List.map_map]
    rfl
  · rw [List.map_map, List.flatMap_map]
    have hown : ((activities.filter (!thresholds.isShort ·)).zipIdx.map fun agg => agg.1) =
        activities.filter (!thresholds.isShort ·) := List.zipIdx_map_fst ..
    refine List.Perm.trans ?_ ((List.Perm.of_eq hown.symm).append (shownGroups_members h).symm)
    exact (List.filter_append_perm _ _).symm.trans List.perm_append_comm
  · intro entry hentry
    obtain ⟨agg, -, rfl⟩ := List.mem_map.mp hentry
    exact ⟨order, agg.2, rfl⟩
  · intro entry hentry
    obtain ⟨group, hgroup, rfl⟩ := List.mem_map.mp hentry
    refine ⟨fun agg hagg => ?_, clock group.1, rfl⟩
    have hmembers := (mem_shownGroups.mp hgroup).1
    rw [hmembers] at hagg
    exact of_decide_eq_true (List.mem_filter.mp hagg).2

theorem tree_total (h : EnoughOfName thresholds activities)
    (hfits : (activities.map (·.totalDurationSeconds)).sum < 2 ^ 64) :
    ((buildAppTree order clock activities thresholds).map (·.totalDurationSecs)).sum =
      (activities.map (·.totalDurationSeconds)).sum := by
  have hmembers : (((shownGroups order thresholds activities).flatMap (·.2)).map
      (·.totalDurationSeconds)).sum = _ := ((shownGroups_members h).map _).sum_nat
  have hsplit := ((List.filter_append_perm thresholds.isShort activities).map
    (·.totalDurationSeconds)).sum_nat
  rw [List.map_append, List.sum_append] at hsplit
  have hgroups : (((shownGroups order thresholds activities).map fun group =>
        groupItem (clock group.1) group.1 group.2).map (·.totalDurationSecs)).sum =
      (((shownGroups order thresholds activities).flatMap (·.2)).map (·.totalDurationSeconds)).sum := by
    rw [List.map_map, List.map_flatMap, List.flatMap_def, List.sum_flatten, List.map_map]
    refine congrArg List.sum (List.map_congr_left fun group hgroup => ?_)
    refine groupItem_total _ _ (lt_of_le_of_lt ?_ hfits)
    rw [(mem_shownGroups.mp hgroup).1]
    exact ((List.filter_sublist.trans List.filter_sublist).map _).sum_le_sum fun _ _ => Nat.zero_le _
  have hown : ((ownItems order thresholds activities).map (·.totalDurationSecs)).sum =
      ((activities.filter (!thresholds.isShort ·)).map (·.totalDurationSeconds)).sum := by
    rw [ownItems, List.map_map]
    have hfst : ((activities.filter (!thresholds.isShort ·)).zipIdx.map fun agg => agg.1) =
        activities.filter (!thresholds.isShort ·) := List.zipIdx_map_fst ..
    conv_rhs => rw [← hfst, List.map_map]
    rfl
  rw [((buildAppTree_perm order clock activities thresholds).map _).sum_nat, List.map_append,
    List.sum_append, hgroups, hown, hmembers]
  omega

/-- For every list of apps whose totals fit a `u64`, all thresholds, clocks and orders of iteration: the
tree represents every app once and its totals add up to those of the apps, exactly if every short-lived app
has enough short-lived apps of its name. -/
theorem every_app_represented_iff (order : TreeOrder) (clock : String → GroupClock)
    (activities : List AggregatedActivity) (thresholds : AppThresholds)
    (hfits : (activities.map (·.totalDurationSeconds)).sum < 2 ^ 64) :
    (Represents (buildAppTree order clock activities thresholds) activities ∧
        ((buildAppTree order clock activities thresholds).map (·.totalDurationSecs)).sum =
          (activities.map (·.totalDurationSeconds)).sum) ↔
      EnoughOfName thresholds activities :=
  ⟨fun h => enoughOfName_of_represents h.1,
    fun h => ⟨represents_of_enoughOfName h, tree_total h hfits⟩⟩

/-- An app that was used for some seconds, for examples. -/
def usedApp (appName : String) (pid : Int) (seconds : Nat) : AggregatedActivity :=
  { appName, pid, processStartTime := 1, windows := ∅, ephemeralGroups := ∅, temporalGroups := []
    totalDurationSeconds := seconds, firstSeen := 0, lastSeen := 0 }

/-- Two short-lived apps of one name, where two are enough. -/
theorem every_app_represented_pair :
    Represents (buildAppTree ⟨.ofEntries, fun _ => .ofEntries, fun _ => .ofEntries⟩ (fun _ => ⟨0, 0⟩)
      [usedApp "Editor" 1 100, usedApp "sh" 2 3, usedApp "sh" 3 4] ⟨60, 2⟩)
      [usedApp "Editor" 1 100, usedApp "sh" 2 3, usedApp "sh" 3 4] :=
  ((every_app_represented_iff _ _ _ _ (by decide)).mpr (by decide)).1

/-- A single short-lived app, where two are asked for, is in no entry. -/
theorem short_app_unrepresented :
    ¬ (Represents (buildAppTree ⟨.ofEntries, fun _ => .ofEntries, fun _ => .ofEntries⟩
        (fun _ => ⟨0, 0⟩) [usedApp "sh" 2 3] ⟨60, 2⟩) [usedApp "sh" 2 3] ∧
      ((buildAppTree ⟨.ofEntries, fun _ => .ofEntries, fun _ => .ofEntries⟩ (fun _ => ⟨0, 0⟩)
        [usedApp "sh" 2 3] ⟨60, 2⟩).map (·.totalDurationSecs)).sum =
          ([usedApp "sh" 2 3].map (·.totalDurationSeconds)).sum) := by
  rintro ⟨-, htotal⟩
  exact absurd htotal (by decide)

end Kronical
