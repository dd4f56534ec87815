import Kronical.Pipeline.AppGroups

/-!
# What an app group shows of its members

The times of an app group are folded from readings of the clock on. The earliest `first_seen` comes out
right, but the group is last seen at the reading itself, unless a member was last seen just then
(`group_summarises_iff`): a group is sorted in front of every app that was not.
-/

namespace Kronical

/-- The entry has one window, with the members' total and their first and last instants. -/
def SummarisesMembers (item : SnapshotApp) (members : List AggregatedActivity) : Prop :=
  ∃ window, item.windows = [window] ∧
    window.durationSeconds = (members.map (·.totalDurationSeconds)).sum ∧
    IsLeast {t | ∃ agg ∈ members, t = agg.firstSeen} window.firstSeen ∧
    IsGreatest {t | ∃ agg ∈ members, t = agg.lastSeen} window.lastSeen

instance (item : SnapshotApp) : Decidable (IsAppGroup item) :=
  inferInstanceAs (Decidable (∃ w ∈ item.windows, _))

/-- The most recent activity of an entry: for a group that of its members, else what it is sorted by. -/
def latestActivity (thresholds : AppThresholds) (activities : List AggregatedActivity)
    (item : SnapshotApp) : DateTime :=
  if IsAppGroup item then
    ((shortOf thresholds activities item.appName).map (·.lastSeen)).max?.getD 0
  else firstWindowSeen item

/-- The members' totals add up to a `u64`, one was seen by the first reading of the clock, and one was last
seen at just the second. -/
def SeenByClock (clock : GroupClock) (members : List AggregatedActivity) : Prop :=
  (members.map (·.totalDurationSeconds)).sum < 2 ^ 64 ∧
    (∃ agg ∈ members, agg.firstSeen ≤ clock.firstSeen) ∧ ∃ agg ∈ members, agg.lastSeen = clock.lastSeen

instance (clock : GroupClock) (members : List AggregatedActivity) : Decidable (SeenByClock clock members) :=
  inferInstanceAs (Decidable (_ ∧ _ ∧ _))

/-! ### One group -/

section Group

variable {clock : GroupClock} {name : String} {members : List AggregatedActivity}

variable (clock members) in
theorem total_eq_sum_iff :
    (members.foldl GroupFold.add (.new clock)).total = (members.map (·.totalDurationSeconds)).sum ↔
      (members.map (·.totalDurationSeconds)).sum < 2 ^ 64 := by
  have htotal : (members.foldl GroupFold.add (.new clock)).total =
      min (0 + (members.map (·.totalDurationSeconds)).sum) (2 ^ 64 - 1) := by
    rw [foldl_total]
    exact Folds.saturating_eq (2 ^ 64 - 1) (fun agg : AggregatedActivity => agg.totalDurationSeconds)
      members (Nat.zero_le _)
  rw [htotal]
  omega

theorem summarises_groupItem_iff (hpast : ∀ agg ∈ members, agg.lastSeen ≤ clock.lastSeen) :
    SummarisesMembers (groupItem clock name members) members ↔ SeenByClock clock members := by
  have hfirst := Folds.isLeast_min_iff (fun agg : AggregatedActivity => agg.firstSeen) members
    clock.firstSeen
  have hlast := Folds.isGreatest_max_iff (fun agg : AggregatedActivity => agg.lastSeen) members
    clock.lastSeen
  have hnow : (∃ agg ∈ members, clock.lastSeen ≤ agg.lastSeen) ↔
      ∃ agg ∈ members, agg.lastSeen = clock.lastSeen :=
    exists_congr fun agg => and_congr_right fun hagg =>
      ⟨fun h => le_antisymm (hpast agg hagg) h, fun h => h.ge⟩
  rw [SeenByClock, ← total_eq_sum_iff clock members, ← hfirst, ← hnow, ← hlast]
  constructor
  · rintro ⟨window, hwindow, htotal, hleast, hgreatest⟩
    obtain rfl := (List.cons.inj hwindow).1
    exact ⟨htotal, foldl_firstSeen members (.new clock) ▸ hleast,
      foldl_lastSeen members (.new clock) ▸ hgreatest⟩
  · rintro ⟨htotal, hleast, hgreatest⟩
    refine ⟨_, rfl, htotal, ?_, ?_⟩
    · exact (foldl_firstSeen members (.new clock)).symm ▸ hleast
    · exact (foldl_lastSeen members (.new clock)).symm ▸ hgreatest

theorem firstWindowSeen_of_summarises {item : SnapshotApp} (h : SummarisesMembers item members) :
    firstWindowSeen item = (members.map (·.lastSeen)).max?.getD 0 := by
  obtain ⟨window, hwindow, -, -, ⟨agg, hagg, heq⟩, hlatest⟩ := h
  have hmax : (members.map (·.lastSeen)).max? = some window.lastSeen := by
    refine List.max?_eq_some_iff.mpr ⟨List.mem_map.mpr ⟨agg, hagg, heq.symm⟩, fun t ht => ?_⟩
    obtain ⟨other, hother, rfl⟩ := List.mem_map.mp ht
    exact hlatest ⟨other, hother, rfl⟩
  rw [firstWindowSeen, hwindow, hmax]
  rfl

end Group

/-! ### The tree -/

/-- For all thresholds, orders of iteration and readings of the clock, and every list of apps none of which
was last seen after the reading for its name: every group of the tree summarises the short-lived apps of its
name, and the tree is sorted by the most recent activity of its entries, exactly if for each name with
enough short-lived apps their totals add up to a `u64`, one of them was first seen by the first reading of
the clock, and one was last seen at just the second. -/
theorem group_summarises_iff (order : TreeOrder) (clock : String → GroupClock)
    (activities : List AggregatedActivity) (thresholds : AppThresholds)
    (hpast : ∀ agg ∈ activities, agg.lastSeen ≤ (clock agg.appName).lastSeen) :
    ((∀ item ∈ buildAppTree order clock activities thresholds, IsAppGroup item →
          SummarisesMembers item (shortOf thresholds activities item.appName)) ∧
        Recency.Sorted (latestActivity thresholds activities)
          (buildAppTree order clock activities thresholds)) ↔
      ∀ name, shortOf thresholds activities name ≠ [] →
        thresholds.appShortMinDistinct ≤ (shortOf thresholds activities name).length →
          SeenByClock (clock name) (shortOf thresholds activities name) := by
  have hmembers : ∀ name, ∀ agg ∈ shortOf thresholds activities name,
      agg.lastSeen ≤ (clock name).lastSeen := by
    intro name agg hagg
    obtain ⟨hagg, hname⟩ := List.mem_filter.mp hagg
    rw [← of_decide_eq_true hname]
    exact hpast agg (List.mem_filter.mp hagg).1
  constructor
  · rintro ⟨hsummary, -⟩ name hne hmin
    have hshown : (name, shortOf thresholds activities name) ∈ shownGroups order thresholds activities :=
      mem_shownGroups.mpr ⟨rfl, hne, hmin⟩
    have hitem : groupItem (clock name) name (shortOf thresholds activities name) ∈
        buildAppTree order clock activities thresholds := groupItem_mem_tree hshown
    exact (summarises_groupItem_iff (hmembers name)).mp (hsummary _ hitem (isAppGroup_groupItem _ _ _))
  · intro hclock
    have hsummary : ∀ item ∈ buildAppTree order clock activities thresholds, IsAppGroup item →
        SummarisesMembers item (shortOf thresholds activities item.appName) := by
      intro item hitem hgroup
      obtain ⟨⟨name, members⟩, hshown, rfl⟩ := mem_tree_group hitem hgroup
      obtain ⟨rfl, hne, hmin⟩ := mem_shownGroups.mp hshown
      exact (summarises_groupItem_iff (hmembers name)).mpr (hclock name hne hmin)
    -- What the tree is sorted by is then the most recent activity.
    have hkey : ∀ item ∈ buildAppTree order clock activities thresholds,
        firstWindowSeen item = latestActivity thresholds activities item := by
      intro item hitem
      rw [latestActivity]
      split_ifs with hgroup
      · exact firstWindowSeen_of_summarises (hsummary item hitem hgroup)
      · rfl
    refine ⟨hsummary, (Recency.sortDesc_sorted firstWindowSeen _).imp_of_mem fun ha hb h => ?_⟩
    rwa [← hkey _ ha, ← hkey _ hb]

/-- Two short-lived apps of one name that are in use. -/
theorem group_summarises_shells :
    Recency.Sorted (latestActivity ⟨60, 2⟩ [usedApp "sh" 2 3, usedApp "sh" 3 4])
      (buildAppTree ⟨.ofEntries, fun _ => .ofEntries, fun _ => .ofEntries⟩ (fun _ => ⟨0, 0⟩)
        [usedApp "sh" 2 3, usedApp "sh" 3 4] ⟨60, 2⟩) := by
  refine ((group_summarises_iff _ _ _ _ (by decide)).mpr fun name hne _ => ?_).2
  obtain ⟨agg, hagg⟩ := List.exists_mem_of_ne_nil _ hne
  obtain ⟨hagg, hname⟩ := List.mem_filter.mp hagg
  have hshell : ∀ agg ∈ [usedApp "sh" 2 3, usedApp "sh" 3 4], "sh" = agg.appName := by decide
  obtain rfl : "sh" = name :=
    (hshell agg (List.mem_filter.mp hagg).1).trans (of_decide_eq_true hname)
  decide

/-- Two short-lived apps of one name that were last seen a second ago are shown as seen now. -/
theorem group_seen_now :
    ¬ ((∀ item ∈ buildAppTree ⟨.ofEntries, fun _ => .ofEntries, fun _ => .ofEntries⟩
          (fun _ => ⟨1000000000, 1000000000⟩) [usedApp "sh" 2 3, usedApp "sh" 3 4] ⟨60, 2⟩,
        IsAppGroup item → SummarisesMembers item
          (shortOf ⟨60, 2⟩ [usedApp "sh" 2 3, usedApp "sh" 3 4] item.appName)) ∧
      Recency.Sorted (latestActivity ⟨60, 2⟩ [usedApp "sh" 2 3, usedApp "sh" 3 4])
        (buildAppTree ⟨.ofEntries, fun _ => .ofEntries, fun _ => .ofEntries⟩
          (fun _ => ⟨1000000000, 1000000000⟩) [usedApp "sh" 2 3, usedApp "sh" 3 4] ⟨60, 2⟩)) := by
  rintro ⟨hsummary, -⟩
  have hshown : ("sh", [usedApp "sh" 2 3, usedApp "sh" 3 4]) ∈
      shownGroups ⟨.ofEntries, fun _ => .ofEntries, fun _ => .ofEntries⟩ ⟨60, 2⟩
        [usedApp "sh" 2 3, usedApp "sh" 3 4] := mem_shownGroups.mpr ⟨rfl, by simp, by decide⟩
  have hitem := hsummary _ (groupItem_mem_tree hshown) (isAppGroup_groupItem _ _ _)
  exact absurd ((summarises_groupItem_iff (by decide)).mp hitem) (by decide)

end Kronical
