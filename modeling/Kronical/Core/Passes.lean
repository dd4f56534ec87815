import Mathlib.Algebra.Order.Group.Int
import Kronical.Core.Aggregate
import Kronical.Lib.Folds
import Kronical.Lib.Runs

/-!
# What the passes do

Each pass moves windows out of an app's map, and loses none: the windows before it are those after it and
the members of the groups that it makes, or the windows that it drops (`windows_groupEphemeral`,
`windows_groupTemporal`, `windows_trimWindows`). Which windows it moves does not depend on the orders of
iteration, except for the windows that are trimmed.
-/

namespace Kronical

namespace AggregatedActivity

variable (toLowercase : String → String) (thresholds : Thresholds) (order : MapSite → IterOrder)

/-! ### Ephemeral groups -/

/-- The short-lived windows of a title. -/
def shortWith (ws : List WindowEntry) (titleKey : String) : List WindowEntry :=
  (ws.filter fun entry => entry.2.durationSeconds < thresholds.shortThreshSecs).filter
    fun entry => titleOf toLowercase entry = titleKey

/-- The ephemeral group of windows of a title. -/
def ephemeralOf (titleKey : String) (members : List WindowEntry) : Option EphemeralGroup :=
  HashMap.gather (fun entry => EphemeralGroup.fresh titleKey entry.2) EphemeralGroup.add members

theorem ephemeralOf_perm (titleKey : String) {members members' : List WindowEntry}
    (h : members.Perm members') : ephemeralOf titleKey members = ephemeralOf titleKey members' := by
  refine HashMap.gather_perm _ _ ?_ ?_ h
  · intro x y
    simp only [EphemeralGroup.add, EphemeralGroup.fresh, min_self, max_self,
      EphemeralGroup.mk.injEq, true_and]
    refine ⟨Finset.insert_comm _ _ _, ?_, min_comm _ _, max_comm _ _⟩
    omega
  · intro g x y
    simp only [EphemeralGroup.add, EphemeralGroup.mk.injEq, true_and]
    refine ⟨Finset.insert_comm _ _ _, ?_, min_right_comm _ _ _, max_right_comm _ _ _⟩
    omega

theorem distinctIds_foldl_add (members : List WindowEntry) (g : EphemeralGroup) :
    (members.foldl EphemeralGroup.add g).distinctIds =
      g.distinctIds ∪ (members.map (·.1)).toFinset := by
  induction members generalizing g with
  | nil => simp
  | cons entry members ih =>
    rw [List.foldl_cons, ih]
    ext id
    simp [EphemeralGroup.add]

theorem distinctIds_ephemeralOf {titleKey : String} {members : List WindowEntry} {g : EphemeralGroup}
    (h : ephemeralOf titleKey members = some g) : g.distinctIds = (members.map (·.1)).toFinset := by
  cases members with
  | nil => cases h
  | cons entry members =>
    rw [← Option.some.inj h, distinctIds_foldl_add]
    exact Finset.empty_union _

variable {toLowercase thresholds order}

theorem shortWith_perm {ws ws' : List WindowEntry} (h : ws.Perm ws') (titleKey : String) :
    (shortWith toLowercase thresholds ws titleKey).Perm
      (shortWith toLowercase thresholds ws' titleKey) := (h.filter _).filter _

variable (agg : AggregatedActivity)

theorem shortEntries_filter_perm (titleKey : String) :
    ((agg.shortEntries thresholds order).filter fun entry => titleOf toLowercase entry = titleKey).Perm
      (shortWith toLowercase thresholds agg.windows.pairs titleKey) :=
  shortWith_perm HashMap.iter_perm titleKey

theorem lookup_staged (titleKey : String) :
    (agg.staged toLowercase thresholds order).lookup titleKey =
      ephemeralOf titleKey (shortWith toLowercase thresholds agg.windows.pairs titleKey) := by
  rw [staged, HashMap.lookup_tally, ← ephemeralOf_perm titleKey
    (shortEntries_filter_perm agg titleKey)]
  refine HashMap.gather_congr _ _ fun entry hentry => ?_
  rw [of_decide_eq_true (List.mem_filter.mp hentry).2]

theorem lookup_groupMembers (titleKey : String) :
    ((agg.groupMembers toLowercase thresholds order).lookup titleKey).getD [] =
      ((agg.shortEntries thresholds order).filter
        fun entry => titleOf toLowercase entry = titleKey).map (·.1) := by
  rw [groupMembers, HashMap.lookup_tally, HashMap.gather_append]
  split_ifs with h
  · rw [h]
    rfl
  · rfl

variable (toLowercase thresholds order)

/-- The titles that have enough short-lived windows, with their groups. -/
def kept (agg : AggregatedActivity) : List (String × EphemeralGroup) :=
  ((agg.staged toLowercase thresholds order).iter (order .staged)).filter
    fun group => thresholds.ephemeralMinDistinctIds ≤ group.2.distinctIds.card

theorem groupEphemeral_eq :
    agg.groupEphemeral toLowercase thresholds order =
      { agg with
        ephemeralGroups := agg.ephemeralGroups.insertAll (agg.kept toLowercase thresholds order)
        windows := agg.windows.eraseAll ((agg.kept toLowercase thresholds order).flatMap fun group =>
          ((agg.groupMembers toLowercase thresholds order).lookup group.1).getD []) } := by
  rw [kept, groupEphemeral, HashMap.insertAll]
  suffices h : ∀ (groups : List (String × EphemeralGroup)) (start : AggregatedActivity),
      groups.foldl
        (fun kept group =>
          if thresholds.ephemeralMinDistinctIds ≤ group.2.distinctIds.card then
            { kept with
              ephemeralGroups := kept.ephemeralGroups.insert group.1 group.2
              windows := kept.windows.eraseAll
                (((agg.groupMembers toLowercase thresholds order).lookup group.1).getD []) }
          else kept) start =
        { start with
          ephemeralGroups := (groups.filter fun group =>
              thresholds.ephemeralMinDistinctIds ≤ group.2.distinctIds.card).foldl
            (fun m group => m.insert group.1 group.2) start.ephemeralGroups
          windows := start.windows.eraseAll ((groups.filter fun group =>
              thresholds.ephemeralMinDistinctIds ≤ group.2.distinctIds.card).flatMap fun group =>
            ((agg.groupMembers toLowercase thresholds order).lookup group.1).getD []) } from h _ agg
  intro groups
  induction groups with
  | nil => exact fun start => rfl
  | cons group groups ih =>
    intro start
    rw [List.foldl_cons, ih, List.filter_cons]
    by_cases hkept : thresholds.ephemeralMinDistinctIds ≤ group.2.distinctIds.card
    · rw [if_pos hkept, if_pos (decide_eq_true hkept), List.flatMap_cons, HashMap.eraseAll_append]
      rfl
    · rw [if_neg hkept, if_neg (by simpa using hkept)]

variable {toLowercase thresholds order}

theorem ids_nodup_shortWith (titleKey : String) :
    ((shortWith toLowercase thresholds agg.windows.pairs titleKey).map (·.1)).Nodup :=
  agg.windows.keys_nodup.sublist ((List.filter_sublist.trans List.filter_sublist).map _)

theorem mem_kept {titleKey : String} {g : EphemeralGroup} :
    (titleKey, g) ∈ agg.kept toLowercase thresholds order ↔
      ephemeralOf titleKey (shortWith toLowercase thresholds agg.windows.pairs titleKey) = some g ∧
        thresholds.ephemeralMinDistinctIds ≤
          (shortWith toLowercase thresholds agg.windows.pairs titleKey).length := by
  rw [kept, List.mem_filter, HashMap.mem_iter, lookup_staged, decide_eq_true_iff]
  refine and_congr_right fun h => ?_
  rw [distinctIds_ephemeralOf h, List.toFinset_card_of_nodup (agg.ids_nodup_shortWith titleKey),
    List.length_map]

theorem kept_nodup : ((agg.kept toLowercase thresholds order).map (·.1)).Nodup :=
  HashMap.iter_keys_nodup.sublist (List.filter_sublist.map _)

theorem lookup_groupEphemeral (hnone : agg.ephemeralGroups = ∅) (titleKey : String)
    (g : EphemeralGroup) :
    (agg.groupEphemeral toLowercase thresholds order).ephemeralGroups.lookup titleKey = some g ↔
      ephemeralOf titleKey (shortWith toLowercase thresholds agg.windows.pairs titleKey) = some g ∧
        thresholds.ephemeralMinDistinctIds ≤
          (shortWith toLowercase thresholds agg.windows.pairs titleKey).length := by
  rw [groupEphemeral_eq, hnone]
  exact (HashMap.lookup_insertAll agg.kept_nodup titleKey g).trans agg.mem_kept

/-- The window is short-lived, and there are enough short-lived windows of its title. -/
def IsEphemeral (toLowercase : String → String) (thresholds : Thresholds) (ws : List WindowEntry)
    (entry : WindowEntry) : Prop :=
  entry.2.durationSeconds < thresholds.shortThreshSecs ∧
    thresholds.ephemeralMinDistinctIds ≤
      (shortWith toLowercase thresholds ws (titleOf toLowercase entry)).length

instance (ws : List WindowEntry) (entry : WindowEntry) :
    Decidable (IsEphemeral toLowercase thresholds ws entry) := inferInstanceAs (Decidable (_ ∧ _))

theorem mem_kept_titles {entry : WindowEntry} (hentry : entry ∈ agg.windows.pairs)
    (hshort : entry.2.durationSeconds < thresholds.shortThreshSecs) :
    titleOf toLowercase entry ∈ (agg.kept toLowercase thresholds order).map (·.1) ↔
      IsEphemeral toLowercase thresholds agg.windows.pairs entry := by
  have hmem : entry ∈ shortWith toLowercase thresholds agg.windows.pairs (titleOf toLowercase entry) := by
    simp [shortWith, hentry, hshort]
  constructor
  · intro h
    obtain ⟨⟨titleKey, g⟩, hkept, heq⟩ := List.mem_map.mp h
    exact ⟨hshort, heq ▸ (agg.mem_kept.mp hkept).2⟩
  · rintro ⟨-, hmin⟩
    obtain ⟨g, hg⟩ := Option.ne_none_iff_exists'.mp
      (mt (HashMap.gather_eq_none _ _).mp (List.ne_nil_of_mem hmem))
    exact List.mem_map.mpr ⟨(_, g), agg.mem_kept.mpr ⟨hg, hmin⟩, rfl⟩

theorem kept_members_perm :
    ((agg.kept toLowercase thresholds order).flatMap fun group =>
        shortWith toLowercase thresholds agg.windows.pairs group.1).Perm
      (agg.windows.pairs.filter (IsEphemeral toLowercase thresholds agg.windows.pairs ·)) := by
  have hnodup : ((agg.kept toLowercase thresholds order).map (·.1)).Nodup := agg.kept_nodup
  have hsplit := HashMap.flatMap_filter_perm (titleOf toLowercase) hnodup
    (agg.windows.pairs.filter fun entry => entry.2.durationSeconds < thresholds.shortThreshSecs)
  rw [List.flatMap_map] at hsplit
  refine hsplit.trans (List.Perm.of_eq ?_)
  rw [List.filter_filter]
  refine List.filter_congr fun entry hentry => ?_
  by_cases hshort : entry.2.durationSeconds < thresholds.shortThreshSecs
  · simp only [agg.mem_kept_titles hentry hshort, hshort, decide_true, Bool.and_true]
  · simp [IsEphemeral, hshort]

/-- The first pass keeps just the windows that are not ephemeral. -/
theorem windows_groupEphemeral :
    (agg.groupEphemeral toLowercase thresholds order).windows.pairs.Perm
      (agg.windows.pairs.filter (¬ IsEphemeral toLowercase thresholds agg.windows.pairs ·)) := by
  have hsplit : agg.windows.pairs.Perm
      (agg.windows.pairs.filter (¬ IsEphemeral toLowercase thresholds agg.windows.pairs ·) ++
        (agg.kept toLowercase thresholds order).flatMap fun group =>
          shortWith toLowercase thresholds agg.windows.pairs group.1) := by
    refine (List.filter_append_perm
      (fun entry => decide (IsEphemeral toLowercase thresholds agg.windows.pairs entry)) _).symm.trans ?_
    refine List.perm_append_comm.trans ?_
    simp only [decide_not]
    exact agg.kept_members_perm.symm.append_left _
  rw [groupEphemeral_eq]
  refine HashMap.pairs_eraseAll hsplit fun id => ?_
  rw [List.mem_flatMap, List.map_flatMap, List.mem_flatMap]
  refine exists_congr fun group => and_congr_right fun _ => ?_
  rw [lookup_groupMembers]
  exact ((agg.shortEntries_filter_perm group.1).map _).mem_iff

/-! ### Temporal groups -/

/-- The windows of a title, cut where an hour passed between two of them. -/
def clustersOf (items : List WindowEntry) : List (List WindowEntry) :=
  (Recency.sortDesc (fun entry : WindowEntry => entry.2.lastSeen) items).splitBy
    (Recency.near (fun entry : WindowEntry => entry.2.lastSeen) clusterThreshold)

theorem clusterStep_collects (titleKey : String) :
    Transducer.Collects (clusterStep titleKey)
      (Recency.near (fun entry : WindowEntry => entry.2.lastSeen) clusterThreshold)
      (closeCluster titleKey)
      (fun s run => s.current = run ∧ s.prevLastSeen = run.getLast?.map (·.2.lastSeen)) where
  extend := by
    rintro ⟨current, prev⟩ front last entry ⟨rfl, hprev⟩ hnear
    obtain ⟨first, rest, hcurrent⟩ : ∃ first rest, front ++ [last] = first :: rest :=
      List.exists_cons_of_ne_nil (List.concat_ne_nil _ _)
    have hgap : last.2.lastSeen - entry.2.lastSeen ≤ clusterThreshold := of_decide_eq_true hnear
    rw [List.getLast?_concat] at hprev
    change prev = some last.2.lastSeen at hprev
    simp only [clusterStep, hcurrent, hprev, if_pos hgap, true_and]
    rw [← hcurrent, List.getLast?_concat]
    rfl
  restart := by
    rintro ⟨current, prev⟩ front last entry ⟨rfl, hprev⟩ hfar
    obtain ⟨first, rest, hcurrent⟩ : ∃ first rest, front ++ [last] = first :: rest :=
      List.exists_cons_of_ne_nil (List.concat_ne_nil _ _)
    have hgap : ¬ last.2.lastSeen - entry.2.lastSeen ≤ clusterThreshold := of_decide_eq_false hfar
    rw [List.getLast?_concat] at hprev
    change prev = some last.2.lastSeen at hprev
    simp only [clusterStep, hcurrent, hprev, if_neg hgap, true_and]
    rfl

theorem clusterTitle_eq (titleKey : String) (items : List WindowEntry) :
    clusterTitle titleKey items = (clustersOf items).flatMap (closeCluster titleKey) := by
  rw [clusterTitle, clustersOf]
  have hlength : (Recency.sortDesc (fun entry : WindowEntry => entry.2.lastSeen) items).length =
      items.length := (Recency.sortDesc_perm _ items).length_eq
  generalize Recency.sortDesc (fun entry : WindowEntry => entry.2.lastSeen) items = sorted at hlength
  rw [← hlength]
  match sorted with
  | [] => rfl
  | [entry] => rfl
  | first :: second :: rest =>
    rw [if_neg (by simp)]
    obtain ⟨cluster, ⟨hcurrent, -⟩, hruns⟩ := (clusterStep_collects titleKey).run_cons
      (s := ⟨[first], some first.2.lastSeen⟩) ⟨rfl, rfl⟩ (second :: rest)
    rw [hruns, ← hcurrent]
    rfl

/-- The titles in the order in which the second pass comes by them. -/
def titles (toLowercase : String → String) (order : MapSite → IterOrder) (agg : AggregatedActivity) :
    List String :=
  ((agg.byTitle toLowercase order).iter (order .byTitle)).map (·.1)

/-- The windows of a title, as the second pass comes by them. -/
def itemsOf (toLowercase : String → String) (order : MapSite → IterOrder) (agg : AggregatedActivity)
    (titleKey : String) : List WindowEntry :=
  (agg.windows.iter (order .ungrouped)).filter fun entry => titleOf toLowercase entry = titleKey

theorem temporalClusters_eq :
    agg.temporalClusters toLowercase order =
      (agg.titles toLowercase order).flatMap fun titleKey =>
        (clustersOf (agg.itemsOf toLowercase order titleKey)).flatMap (closeCluster titleKey) := by
  rw [temporalClusters, titles, List.flatMap_map]
  refine List.flatMap_congr fun ⟨titleKey, items⟩ hmem => ?_
  rw [HashMap.mem_iter, byTitle, HashMap.lookup_tally, HashMap.gather_append] at hmem
  split_ifs at hmem with hnone
  rw [clusterTitle_eq, ← Option.some.inj hmem, List.map_id']
  rfl

theorem titles_nodup : (agg.titles toLowercase order).Nodup := HashMap.iter_keys_nodup

theorem mem_titles {titleKey : String} :
    titleKey ∈ agg.titles toLowercase order ↔
      ∃ entry ∈ agg.windows.pairs, titleOf toLowercase entry = titleKey := by
  rw [titles, (HashMap.iter_perm.map _).mem_iff, byTitle, HashMap.mem_keys_tally]
  simp only [HashMap.iter_perm.mem_iff]

theorem itemsOf_perm (titleKey : String) :
    (agg.itemsOf toLowercase order titleKey).Perm
      (agg.windows.pairs.filter fun entry => titleOf toLowercase entry = titleKey) :=
  HashMap.iter_perm.filter _

theorem clustersOf_flatten_perm (items : List WindowEntry) : (clustersOf items).flatten.Perm items := by
  rw [clustersOf, List.flatten_splitBy]
  exact Recency.sortDesc_perm _ items

/-- There is another window of the title that was last seen within the hour. -/
def IsClustered (toLowercase : String → String) (ws : List WindowEntry) (entry : WindowEntry) : Prop :=
  ∃ other ∈ ws, other ≠ entry ∧ titleOf toLowercase other = titleOf toLowercase entry ∧
    entry.2.lastSeen - other.2.lastSeen ≤ clusterThreshold ∧
    other.2.lastSeen - entry.2.lastSeen ≤ clusterThreshold

instance (ws : List WindowEntry) (entry : WindowEntry) : Decidable (IsClustered toLowercase ws entry) :=
  inferInstanceAs (Decidable (∃ other ∈ ws, _))

theorem two_le_length_cluster {titleKey : String} {cluster : List WindowEntry}
    (hcluster : cluster ∈ clustersOf (agg.itemsOf toLowercase order titleKey)) {entry : WindowEntry}
    (hentry : entry ∈ cluster) :
    2 ≤ cluster.length ↔ IsClustered toLowercase agg.windows.pairs entry := by
  have hmem : ∀ other, other ∈ Recency.sortDesc (fun entry : WindowEntry => entry.2.lastSeen)
      (agg.itemsOf toLowercase order titleKey) ↔
        other ∈ agg.windows.pairs ∧ titleOf toLowercase other = titleKey := fun other => by
    rw [(Recency.sortDesc_perm _ _).mem_iff, (agg.itemsOf_perm titleKey).mem_iff, List.mem_filter,
      decide_eq_true_iff]
  have hnodup : (Recency.sortDesc (fun entry : WindowEntry => entry.2.lastSeen)
      (agg.itemsOf toLowercase order titleKey)).Nodup :=
    ((Recency.sortDesc_perm _ _).trans (agg.itemsOf_perm titleKey)).nodup_iff.mpr
      (agg.windows.pairs_nodup.filter _)
  have htitle : titleOf toLowercase entry = titleKey := by
    refine ((hmem entry).mp ?_).2
    rw [← List.flatten_splitBy (Recency.near (fun entry : WindowEntry => entry.2.lastSeen)
      clusterThreshold) (Recency.sortDesc _ _)]
    exact List.mem_flatten.mpr ⟨cluster, hcluster, hentry⟩
  rw [Recency.two_le_length_iff (by decide) (Recency.sortDesc_sorted _ _) hnodup hcluster hentry]
  constructor
  · rintro ⟨other, hother, hne, hnear⟩
    exact ⟨other, ((hmem other).mp hother).1, hne, ((hmem other).mp hother).2.trans htitle.symm, hnear⟩
  · rintro ⟨other, hother, hne, hsame, hnear⟩
    exact ⟨other, (hmem other).mpr ⟨hother, hsame.trans htitle⟩, hne, hnear⟩

theorem ids_closeCluster (titleKey : String) (cluster : List WindowEntry) :
    (closeCluster titleKey cluster).flatMap (·.1) =
      if 2 ≤ cluster.length then cluster.map (·.1) else [] := by
  match cluster with
  | [] | [_] => rfl
  | first :: second :: rest => simp [closeCluster]

theorem clusters_members_perm :
    ((agg.temporalClusters toLowercase order).flatMap (·.1)).Perm
      ((agg.windows.pairs.filter (IsClustered toLowercase agg.windows.pairs ·)).map (·.1)) := by
  have hcluster : ∀ titleKey,
      ∀ cluster ∈ clustersOf (agg.itemsOf toLowercase order titleKey),
        (closeCluster titleKey cluster).flatMap (·.1) =
          (cluster.filter (IsClustered toLowercase agg.windows.pairs ·)).map (·.1) := by
    intro titleKey cluster hcluster
    rw [ids_closeCluster]
    split_ifs with hlength
    · rw [List.filter_eq_self.mpr fun entry hentry =>
        decide_eq_true ((agg.two_le_length_cluster hcluster hentry).mp hlength)]
    · rw [List.filter_eq_nil_iff.mpr fun entry hentry => by
        simpa using mt (agg.two_le_length_cluster hcluster hentry).mpr hlength]
      rfl
  have htitle : ∀ titleKey,
      ((clustersOf (agg.itemsOf toLowercase order titleKey)).flatMap (closeCluster titleKey)).flatMap
          (·.1) =
        ((clustersOf (agg.itemsOf toLowercase order titleKey)).flatten.filter
          (IsClustered toLowercase agg.windows.pairs ·)).map (·.1) := by
    intro titleKey
    rw [List.flatMap_assoc, List.flatMap_congr (hcluster titleKey), List.filter_flatten,
      List.map_flatten, List.flatMap_def, List.map_map]
    rfl
  rw [temporalClusters_eq, List.flatMap_assoc, List.flatMap_congr fun titleKey _ => htitle titleKey,
    ← List.map_flatMap]
  refine List.Perm.map _ ?_
  have hfilter : ∀ titleKey ∈ agg.titles toLowercase order,
      ((clustersOf (agg.itemsOf toLowercase order titleKey)).flatten.filter
          (IsClustered toLowercase agg.windows.pairs ·)).Perm
        ((agg.windows.pairs.filter (IsClustered toLowercase agg.windows.pairs ·)).filter
          fun entry => titleOf toLowercase entry = titleKey) := by
    intro titleKey _
    rw [List.filter_comm]
    exact ((clustersOf_flatten_perm _).trans (agg.itemsOf_perm titleKey)).filter _
  refine (List.Perm.flatMap_left _ hfilter).trans ?_
  refine (HashMap.flatMap_filter_perm _ agg.titles_nodup _).trans (List.Perm.of_eq ?_)
  refine List.filter_eq_self.mpr fun entry hentry => decide_eq_true ?_
  exact agg.mem_titles.mpr ⟨entry, (List.mem_filter.mp hentry).1, rfl⟩

/-- The second pass keeps just the windows that are not clustered. -/
theorem windows_groupTemporal :
    (agg.groupTemporal toLowercase order).windows.pairs.Perm
      (agg.windows.pairs.filter (¬ IsClustered toLowercase agg.windows.pairs ·)) := by
  have hsplit : agg.windows.pairs.Perm
      (agg.windows.pairs.filter (¬ IsClustered toLowercase agg.windows.pairs ·) ++
        agg.windows.pairs.filter (IsClustered toLowercase agg.windows.pairs ·)) := by
    refine (List.filter_append_perm
      (fun entry => decide (IsClustered toLowercase agg.windows.pairs entry)) _).symm.trans ?_
    simp only [decide_not]
    exact List.perm_append_comm
  refine HashMap.pairs_eraseAll hsplit fun id => ?_
  rw [((order .groupedIds).perm _).mem_iff, List.mem_dedup]
  exact agg.clusters_members_perm.mem_iff

theorem mem_temporalClusters {ids : List Nat} {g : TemporalGroup}
    (h : (ids, g) ∈ agg.temporalClusters toLowercase order) :
    ∃ titleKey first second rest,
      first :: second :: rest ∈ clustersOf (agg.itemsOf toLowercase order titleKey) ∧
        ids = (first :: second :: rest).map (·.1) ∧
        g = buildTemporalGroup titleKey first (second :: rest) := by
  rw [temporalClusters_eq] at h
  obtain ⟨titleKey, -, h⟩ := List.mem_flatMap.mp h
  obtain ⟨cluster, hcluster, h⟩ := List.mem_flatMap.mp h
  match cluster, h with
  | first :: second :: rest, h =>
    obtain ⟨hids, hg⟩ := Prod.mk.inj (List.mem_singleton.mp h)
    exact ⟨titleKey, first, second, rest, hcluster, hids, hg⟩

theorem cluster_sub {titleKey : String} {cluster : List WindowEntry}
    (h : cluster ∈ clustersOf (agg.itemsOf toLowercase order titleKey)) :
    (∀ entry ∈ cluster, entry ∈ agg.windows.pairs) ∧ (cluster.map (·.1)).Nodup := by
  have hperm : (clustersOf (agg.itemsOf toLowercase order titleKey)).flatten.Perm
      (agg.windows.pairs.filter fun entry => titleOf toLowercase entry = titleKey) :=
    (clustersOf_flatten_perm _).trans (agg.itemsOf_perm titleKey)
  constructor
  · intro entry hentry
    exact (List.mem_filter.mp (hperm.mem_iff.mp (List.mem_flatten.mpr ⟨cluster, h, hentry⟩))).1
  · have hnodup := (hperm.map (·.1)).nodup_iff.mpr
      (agg.windows.keys_nodup.sublist (List.filter_sublist.map _))
    exact hnodup.sublist ((List.sublist_flatten_of_mem h).map _)

/-! ### Trimming -/

/-- The windows from which the third pass takes the first ones. -/
def winVec (order : MapSite → IterOrder) (agg : AggregatedActivity) : List WindowEntry :=
  Recency.sortDesc (fun entry : WindowEntry => entry.2.lastSeen) (agg.windows.iter (order .trimmed))

theorem winVec_perm : (agg.winVec order).Perm agg.windows.pairs :=
  (Recency.sortDesc_perm _ _).trans HashMap.iter_perm

/-- The app has more windows than are kept. -/
def IsTrimmed (thresholds : Thresholds) (agg : AggregatedActivity) : Prop :=
  0 < thresholds.maxWindowsPerApp ∧ thresholds.maxWindowsPerApp < agg.windows.size

instance : Decidable (IsTrimmed thresholds agg) := inferInstanceAs (Decidable (_ ∧ _))

/-- When it trims, the third pass keeps the first windows. -/
theorem windows_trimWindows :
    (agg.trimWindows thresholds order).windows.pairs.Perm
      (if IsTrimmed thresholds agg then (agg.winVec order).take thresholds.maxWindowsPerApp
      else agg.windows.pairs) := by
  rw [trimWindows]
  by_cases h : 0 < thresholds.maxWindowsPerApp ∧ thresholds.maxWindowsPerApp < agg.windows.size
  · rw [if_pos h, if_pos (show IsTrimmed thresholds agg from h)]
    refine HashMap.pairs_insertAll (List.Nodup.sublist ((List.take_sublist _ _).map _) ?_)
    exact (agg.winVec_perm.map _).nodup_iff.mpr agg.windows.keys_nodup
  · rw [if_neg h, if_neg (show ¬ IsTrimmed thresholds agg from h)]

/-! ### What the passes leave alone -/

theorem trimWindows_eq : agg.trimWindows thresholds order =
    { agg with windows := (agg.trimWindows thresholds order).windows } := by
  rw [trimWindows]
  split_ifs
  · rfl
  · rfl

theorem groupEphemeral_leaves : agg.groupEphemeral toLowercase thresholds order =
    { agg with
      windows := (agg.groupEphemeral toLowercase thresholds order).windows
      ephemeralGroups := (agg.groupEphemeral toLowercase thresholds order).ephemeralGroups } := by
  rw [groupEphemeral_eq]

theorem group_leaves : agg.group toLowercase thresholds order =
    { agg with
      windows := (agg.group toLowercase thresholds order).windows
      ephemeralGroups := (agg.group toLowercase thresholds order).ephemeralGroups
      temporalGroups := (agg.group toLowercase thresholds order).temporalGroups } := by
  rw [group, trimWindows_eq, groupTemporal, groupEphemeral_leaves]

end AggregatedActivity

end Kronical
