import Mathlib.Algebra.Order.Group.Abs
import Kronical.Core.OrderFree

/-!
# Temporal groups as components

The second pass of `aggregate_activities_since` walks the windows of a title from the latest to the earliest
and starts a new cluster where more than an hour lies between two of them. Of the graph whose edges are the
pairs of windows of one title that were last seen within an hour of each other, the clusters are the
connected components (`mem_cluster_iff_linked`), and the groups those of them with two windows or more.
-/

namespace Kronical

namespace AggregatedActivity

variable (toLowercase : String → String) (thresholds : Thresholds) (order : MapSite → IterOrder)
  (agg : AggregatedActivity)

/-- Two of the windows have one title and were last seen at most an hour apart. -/
def WithinHour (ws : List WindowEntry) (entry other : WindowEntry) : Prop :=
  entry ∈ ws ∧ other ∈ ws ∧ titleOf toLowercase entry = titleOf toLowercase other ∧
    |entry.2.lastSeen - other.2.lastSeen| ≤ clusterThreshold

/-- A chain of windows leads from one to the other, each within an hour of the next. -/
def ChainLinked (ws : List WindowEntry) : WindowEntry → WindowEntry → Prop :=
  Relation.ReflTransGen (WithinHour toLowercase ws)

/-- Some group has both windows. -/
def ShareGroup (groups : List TemporalGroup) (entry other : WindowEntry) : Prop :=
  ∃ g ∈ groups, entry.1 ∈ g.distinctIds ∧ other.1 ∈ g.distinctIds

/-! ### Clusters -/

section Clusters

variable {toLowercase order agg} {titleKey : String} {cluster : List WindowEntry}

theorem mem_sorted_itemsOf {entry : WindowEntry} :
    entry ∈ Recency.sortDesc (fun entry : WindowEntry => entry.2.lastSeen)
        (agg.itemsOf toLowercase order titleKey) ↔
      entry ∈ agg.windows.pairs ∧ titleOf toLowercase entry = titleKey := by
  rw [(Recency.sortDesc_perm _ _).mem_iff, (agg.itemsOf_perm titleKey).mem_iff, List.mem_filter,
    decide_eq_true_iff]

theorem mem_of_mem_cluster (hcluster : cluster ∈ clustersOf (agg.itemsOf toLowercase order titleKey))
    {entry : WindowEntry} (hentry : entry ∈ cluster) :
    entry ∈ agg.windows.pairs ∧ titleOf toLowercase entry = titleKey := by
  have hsorted : entry ∈ Recency.sortDesc (fun entry : WindowEntry => entry.2.lastSeen)
      (agg.itemsOf toLowercase order titleKey) := by
    rw [← List.flatten_splitBy (Recency.near (fun entry : WindowEntry => entry.2.lastSeen)
      clusterThreshold) (Recency.sortDesc _ _)]
    exact List.mem_flatten.mpr ⟨cluster, hcluster, hentry⟩
  exact mem_sorted_itemsOf.mp hsorted

variable (order) in
theorem exists_cluster {entry : WindowEntry} (hentry : entry ∈ agg.windows.pairs) :
    ∃ cluster ∈ clustersOf (agg.itemsOf toLowercase order (titleOf toLowercase entry)),
      entry ∈ cluster := by
  refine List.mem_flatten.mp ?_
  rw [(clustersOf_flatten_perm _).mem_iff, (agg.itemsOf_perm _).mem_iff]
  exact List.mem_filter.mpr ⟨hentry, decide_eq_true rfl⟩

theorem titleOf_eq_of_chainLinked {ws : List WindowEntry} {entry other : WindowEntry}
    (h : ChainLinked toLowercase ws entry other) :
    titleOf toLowercase entry = titleOf toLowercase other := by
  induction h with
  | refl => rfl
  | tail _ hstep ih => exact ih.trans hstep.2.2.1

theorem linked_iff {entry other : WindowEntry} :
    Recency.Linked (fun entry : WindowEntry => entry.2.lastSeen) clusterThreshold
        (Recency.sortDesc (fun entry : WindowEntry => entry.2.lastSeen)
          (agg.itemsOf toLowercase order titleKey)) entry other ↔
      WithinHour toLowercase agg.windows.pairs entry other ∧
        titleOf toLowercase entry = titleKey := by
  rw [Recency.Linked, mem_sorted_itemsOf, mem_sorted_itemsOf, WithinHour, abs_sub_le_iff]
  constructor
  · rintro ⟨⟨hentry, rfl⟩, ⟨hother, htitle⟩, hnear⟩
    exact ⟨⟨hentry, hother, htitle.symm, hnear⟩, rfl⟩
  · rintro ⟨⟨hentry, hother, htitle, hnear⟩, rfl⟩
    exact ⟨⟨hentry, rfl⟩, ⟨hother, htitle.symm⟩, hnear⟩

/-- A cluster is what chains link to one of its windows. -/
theorem mem_cluster_iff_linked
    (hcluster : cluster ∈ clustersOf (agg.itemsOf toLowercase order titleKey))
    {entry : WindowEntry} (hentry : entry ∈ cluster) (other : WindowEntry) :
    other ∈ cluster ↔ ChainLinked toLowercase agg.windows.pairs entry other := by
  have htitle := (mem_of_mem_cluster hcluster hentry).2
  rw [Recency.mem_cluster_iff (by decide) (Recency.sortDesc_sorted _ _) hcluster hentry]
  constructor
  · exact Relation.ReflTransGen.mono (fun _ _ hstep => (linked_iff.mp hstep).1) _ _
  · intro h
    -- Along the chain the title stays that of the cluster.
    induction h with
    | refl => exact .refl
    | tail hchain hstep ih =>
      exact ih.tail (linked_iff.mpr ⟨hstep, (titleOf_eq_of_chainLinked hchain).symm.trans htitle⟩)

theorem mem_distinctIds_iff {first : WindowEntry} {rest : List WindowEntry}
    (hcluster : first :: rest ∈ clustersOf (agg.itemsOf toLowercase order titleKey))
    {entry : WindowEntry} (hentry : entry ∈ agg.windows.pairs) :
    entry.1 ∈ (buildTemporalGroup titleKey first rest).distinctIds ↔ entry ∈ first :: rest := by
  rw [distinctIds_buildTemporalGroup, List.mem_toFinset]
  constructor
  · intro hid
    obtain ⟨member, hmember, hsame⟩ := List.mem_map.mp hid
    have hpairs := (mem_of_mem_cluster hcluster hmember).1
    rwa [← List.inj_on_of_nodup_map agg.windows.keys_nodup hpairs hentry hsame]
  · exact List.mem_map_of_mem

end Clusters

/-! ### Groups -/

theorem shareGroup_clusters_iff {entry other : WindowEntry} (hentry : entry ∈ agg.windows.pairs)
    (hother : other ∈ agg.windows.pairs) (hne : entry ≠ other) :
    ShareGroup ((agg.temporalClusters toLowercase order).map (·.2)) entry other ↔
      titleOf toLowercase entry = titleOf toLowercase other ∧
        ChainLinked toLowercase agg.windows.pairs entry other := by
  constructor
  · rintro ⟨g, hg, hid, hid'⟩
    obtain ⟨⟨ids, g⟩, hmem, rfl⟩ := List.mem_map.mp hg
    obtain ⟨titleKey, first, second, rest, hcluster, -, rfl⟩ := mem_temporalClusters _ hmem
    have hchain := (mem_cluster_iff_linked hcluster
      ((mem_distinctIds_iff hcluster hentry).mp hid) other).mp
      ((mem_distinctIds_iff hcluster hother).mp hid')
    exact ⟨titleOf_eq_of_chainLinked hchain, hchain⟩
  · rintro ⟨-, hchain⟩
    obtain ⟨cluster, hcluster, hin⟩ := exists_cluster order hentry
    have hin' := (mem_cluster_iff_linked hcluster hin other).mpr hchain
    match cluster, hcluster, hin, hin' with
    | [single], _, hin, hin' =>
      exact absurd ((List.mem_singleton.mp hin).trans (List.mem_singleton.mp hin').symm) hne
    | first :: second :: rest, hcluster, hin, hin' =>
      refine ⟨buildTemporalGroup (titleOf toLowercase entry) first (second :: rest), ?_,
        (mem_distinctIds_iff hcluster hentry).mpr hin, (mem_distinctIds_iff hcluster hother).mpr hin'⟩
      refine List.mem_map.mpr ⟨((first :: second :: rest).map (·.1), _), ?_, rfl⟩
      rw [temporalClusters_eq]
      refine List.mem_flatMap.mpr ⟨_, agg.mem_titles.mpr ⟨entry, hentry, rfl⟩, ?_⟩
      exact List.mem_flatMap.mpr ⟨_, hcluster, List.mem_singleton_self _⟩

theorem exists_linked_of_mem_group {g : TemporalGroup}
    (hg : g ∈ (agg.temporalClusters toLowercase order).map (·.2)) {id : Nat} (hid : id ∈ g.distinctIds) :
    ∃ entry ∈ agg.windows.pairs, entry.1 = id ∧
      ∃ other, other ≠ entry ∧ ChainLinked toLowercase agg.windows.pairs entry other := by
  obtain ⟨⟨ids, g⟩, hmem, rfl⟩ := List.mem_map.mp hg
  obtain ⟨titleKey, first, second, rest, hcluster, -, rfl⟩ := mem_temporalClusters _ hmem
  rw [distinctIds_buildTemporalGroup, List.mem_toFinset] at hid
  obtain ⟨entry, hentry, rfl⟩ := List.mem_map.mp hid
  refine ⟨entry, (mem_of_mem_cluster hcluster hentry).1, rfl, ?_⟩
  have hdistinct : first ≠ second := by
    have hids := (cluster_sub _ hcluster).2.of_map
    rintro rfl
    simp at hids
  by_cases hfirst : entry = first
  · refine ⟨second, ?_, (mem_cluster_iff_linked hcluster hentry second).mp (by simp)⟩
    exact hfirst ▸ hdistinct.symm
  · exact ⟨first, Ne.symm hfirst, (mem_cluster_iff_linked hcluster hentry first).mp (by simp)⟩

theorem unlinked_stays {entry : WindowEntry} (hentry : entry ∈ agg.windows.pairs)
    (hsingle : ∀ other, ChainLinked toLowercase agg.windows.pairs entry other → other = entry) :
    (∀ g ∈ (agg.temporalClusters toLowercase order).map (·.2), entry.1 ∉ g.distinctIds) ∧
      entry ∈ (agg.groupTemporal toLowercase order).windows.pairs := by
  constructor
  · intro g hg hid
    obtain ⟨member, hmember, hsame, other, hne, hchain⟩ :=
      agg.exists_linked_of_mem_group toLowercase order hg hid
    obtain rfl := List.inj_on_of_nodup_map agg.windows.keys_nodup hmember hentry hsame
    exact hne (hsingle other hchain)
  · rw [agg.windows_groupTemporal.mem_iff, List.mem_filter, decide_eq_true_iff]
    refine ⟨hentry, ?_⟩
    rintro ⟨other, hother, hne, htitle, hnear⟩
    refine hne (hsingle other (.single ⟨hentry, hother, htitle.symm, abs_sub_le_iff.mpr hnear⟩))

end AggregatedActivity

open AggregatedActivity

/-- For every list of records, `since`, `now`, thresholds and orders of iteration, and every app of the
result: of the windows left by the first pass, two are in one temporal group exactly if they have one title
and are linked by a chain of such windows with that title, each last seen at most an hour from the next; a
window that is linked to no other is in no group and is left by the second pass; and a group has no other
ids than those of windows left by the first pass. -/
theorem temporal_groups_components (toLowercase : String → String) (order : AggregateOrder)
    (records : List ActivityRecord) (since now : DateTime) (thresholds : Thresholds)
    (agg : AggregatedActivity)
    (hagg : agg ∈ aggregateActivitiesSince toLowercase order records since now thresholds) :
    ∃ app short, (appMap records since now).lookup agg.key = some app ∧
      short = app.groupEphemeral toLowercase thresholds (order.inApp agg.key) ∧
      agg = trimWindows thresholds (order.inApp agg.key)
        (groupTemporal toLowercase (order.inApp agg.key) short) ∧
      (∀ entry ∈ short.windows.pairs, ∀ other ∈ short.windows.pairs, entry ≠ other →
        (ShareGroup agg.temporalGroups entry other ↔
          titleOf toLowercase entry = titleOf toLowercase other ∧
            ChainLinked toLowercase short.windows.pairs entry other)) ∧
      (∀ entry ∈ short.windows.pairs,
        (∀ other, ChainLinked toLowercase short.windows.pairs entry other → other = entry) →
          (∀ g ∈ agg.temporalGroups, entry.1 ∉ g.distinctIds) ∧
            entry ∈ (groupTemporal toLowercase (order.inApp agg.key) short).windows.pairs) ∧
      ∀ g ∈ agg.temporalGroups, ∀ id ∈ g.distinctIds, ∃ entry ∈ short.windows.pairs, entry.1 = id := by
  obtain ⟨⟨key, app⟩, happ, rfl⟩ := mem_aggregate.mp hagg
  have hkey : (app.group toLowercase thresholds (order.inApp key)).key = key := by
    rw [group_leaves]
    exact (ofSpans_of_mem happ).key
  rw [hkey]
  refine ⟨app, _, HashMap.mem_pairs.mp happ, rfl, rfl, ?_, ?_, ?_⟩
  · intro entry hentry other hother hne
    rw [temporalGroups_eq_clusters]
    exact shareGroup_clusters_iff toLowercase _ _ hentry hother hne
  · intro entry hentry hsingle
    rw [temporalGroups_eq_clusters]
    exact unlinked_stays toLowercase _ _ hentry hsingle
  · intro g hg id hid
    rw [temporalGroups_eq_clusters] at hg
    obtain ⟨entry, hentry, hsame, -⟩ := exists_linked_of_mem_group toLowercase _ _ hg hid
    exact ⟨entry, hentry, hsame⟩

/-- The app of three windows of one title: the first two are seen in one hour, the third hours later. -/
def chatApps : List AggregatedActivity :=
  aggregateActivitiesSince id ⟨.ofEntries, fun _ _ => .ofEntries⟩
    [⟨1, none, 0, some 2000000000, .active, some (.sample "Chat" "a" 1), 0, []⟩,
      ⟨2, none, 2000000000, some 4000000000, .active, some (.sample "Chat" "a" 2), 0, []⟩,
      ⟨3, none, 9000000000000, some 9002000000000, .active, some (.sample "Chat" "a" 3), 0, []⟩]
    0 9002000000000 ⟨1, 2, 10⟩

theorem chatApps_ne_nil : chatApps ≠ [] := by decide

theorem temporal_groups_components_chat :
    ∃ ws : List WindowEntry, ∃ entry ∈ ws, ∃ other ∈ ws, entry.1 = 1 ∧ other.1 = 2 ∧
      ChainLinked id ws entry other := by
  obtain ⟨app, short, -, -, -, hshare, -, hids⟩ :=
    temporal_groups_components id _ _ _ _ _ (chatApps.head chatApps_ne_nil) (List.head_mem _)
  have hgroup : ∃ g ∈ (chatApps.head chatApps_ne_nil).temporalGroups,
      1 ∈ g.distinctIds ∧ 2 ∈ g.distinctIds := by decide
  obtain ⟨g, hg, hone, htwo⟩ := hgroup
  obtain ⟨entry, hentry, hid⟩ := hids g hg 1 hone
  obtain ⟨other, hother, hid'⟩ := hids g hg 2 htwo
  have hne : entry ≠ other := by
    rintro rfl
    omega
  have hchain := (hshare entry hentry other hother hne).mp ⟨g, hg, hid.symm ▸ hone, hid'.symm ▸ htwo⟩
  exact ⟨short.windows.pairs, entry, hentry, other, hother, hid, hid', hchain.2⟩

end Kronical
