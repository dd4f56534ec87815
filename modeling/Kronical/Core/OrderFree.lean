import Kronical.Core.Lanes

/-!
# What depends on the order of hash maps

The windows that become members of groups are the same in any order of iteration, and so are the ephemeral
groups. The list of temporal groups is the same if they all have one title (`temporalGroups_eq`), and else
there are two orders with different first groups (`exists_temporalGroups_ne`). The windows that remain are
the same if no two windows that were last seen at one time are kept and dropped (`mem_group_windows`), and
else there are two orders that keep different ones (`exists_windows_ne`).
-/

namespace Kronical.AggregatedActivity

variable (toLowercase : String → String) (thresholds : Thresholds) (order : MapSite → IterOrder)
  (agg : AggregatedActivity)

/-! ### What is left of the windows -/

/-- The windows that are not ephemeral. -/
def leftByFirst : List WindowEntry :=
  agg.windows.pairs.filter (¬ IsEphemeral toLowercase thresholds agg.windows.pairs ·)

/-- The windows that are in no group. -/
def leftBySecond : List WindowEntry :=
  (agg.leftByFirst toLowercase thresholds).filter
    (¬ IsClustered toLowercase (agg.leftByFirst toLowercase thresholds) ·)

theorem isClustered_congr {ws ws' : List WindowEntry} (h : ws.Perm ws') (entry : WindowEntry) :
    IsClustered toLowercase ws entry ↔ IsClustered toLowercase ws' entry := by
  simp only [IsClustered, h.mem_iff]

theorem windows_leftByFirst :
    (agg.groupEphemeral toLowercase thresholds order).windows.pairs.Perm
      (agg.leftByFirst toLowercase thresholds) := agg.windows_groupEphemeral

theorem windows_leftBySecond :
    ((agg.groupEphemeral toLowercase thresholds order).groupTemporal toLowercase order).windows.pairs.Perm
      (agg.leftBySecond toLowercase thresholds) := by
  have hfirst := agg.windows_leftByFirst toLowercase thresholds order
  refine (windows_groupTemporal _).trans ?_
  refine (hfirst.filter _).trans (List.Perm.of_eq (List.filter_congr fun entry _ => ?_))
  simp only [isClustered_congr toLowercase hfirst]

/-! ### Ephemeral groups -/

theorem ephemeralGroups_perm (hnone : agg.ephemeralGroups = ∅) (order' : MapSite → IterOrder) :
    (agg.group toLowercase thresholds order).ephemeralGroups.pairs.Perm
      (agg.group toLowercase thresholds order').ephemeralGroups.pairs := by
  have hgroup : ∀ order, (agg.group toLowercase thresholds order).ephemeralGroups =
      (agg.groupEphemeral toLowercase thresholds order).ephemeralGroups := by
    intro order
    rw [group, trimWindows_eq]
    rfl
  rw [hgroup, hgroup]
  refine HashMap.ext_lookup fun titleKey => Option.ext fun g => ?_
  exact (agg.lookup_groupEphemeral hnone titleKey g).trans
    (agg.lookup_groupEphemeral hnone titleKey g).symm

/-! ### Temporal groups -/

theorem buildTemporalGroup_perm (titleKey : String) {first first' : WindowEntry}
    {rest rest' : List WindowEntry} (h : (first :: rest).Perm (first' :: rest')) :
    buildTemporalGroup titleKey first rest = buildTemporalGroup titleKey first' rest' := by
  have hids : (buildTemporalGroup titleKey first rest).distinctIds =
      (buildTemporalGroup titleKey first' rest').distinctIds := by
    rw [distinctIds_buildTemporalGroup, distinctIds_buildTemporalGroup]
    exact List.toFinset_eq_of_perm _ _ (h.map _)
  have htotal : (buildTemporalGroup titleKey first rest).totalDurationSeconds =
      (buildTemporalGroup titleKey first' rest').totalDurationSeconds := by
    rw [buildTemporalGroup_total, buildTemporalGroup_total, (h.map _).sum_nat]
  have hlongest : (buildTemporalGroup titleKey first rest).maxDurationSeconds =
      (buildTemporalGroup titleKey first' rest').maxDurationSeconds :=
    Folds.max_perm (fun w : WindowEntry => w.2.durationSeconds) h 0
  obtain ⟨hfirst, hlast⟩ := buildTemporalGroup_seen titleKey first rest
  obtain ⟨hfirst', hlast'⟩ := buildTemporalGroup_seen titleKey first' rest'
  simp only [h.mem_iff] at hfirst hlast
  have hcount : (buildTemporalGroup titleKey first rest).occurrenceCount =
      (buildTemporalGroup titleKey first' rest').occurrenceCount :=
    congrArg (·.card % 2 ^ 32) hids
  have hanchor : (buildTemporalGroup titleKey first rest).anchorLastSeen =
      (buildTemporalGroup titleKey first' rest').anchorLastSeen := hlast.unique hlast'
  exact TemporalGroup.mk.injEq .. |>.mpr
    ⟨rfl, hids, hcount, htotal, hlongest, hfirst.unique hfirst', hanchor, hanchor⟩

theorem closeCluster_perm (titleKey : String) {cluster cluster' : List WindowEntry}
    (h : cluster.Perm cluster') :
    (closeCluster titleKey cluster).map (·.2) = (closeCluster titleKey cluster').map (·.2) := by
  match cluster, cluster', h.length_eq with
  | [], [], _ => rfl
  | [_], [_], _ => rfl
  | first :: second :: rest, first' :: second' :: rest', _ =>
    exact congrArg (fun g => [g]) (buildTemporalGroup_perm titleKey h)

/-- The groups of the windows of a title. -/
def groupsOf (titleKey : String) (items : List WindowEntry) : List TemporalGroup :=
  ((clustersOf items).flatMap (closeCluster titleKey)).map (·.2)

theorem groupsOf_perm (titleKey : String) {items items' : List WindowEntry} (h : items.Perm items') :
    groupsOf titleKey items = groupsOf titleKey items' := by
  have hclusters : List.Forall₂ List.Perm (clustersOf items) (clustersOf items') :=
    Recency.clusters_perm (by decide) h
  rw [groupsOf, groupsOf, List.map_flatMap, List.map_flatMap]
  generalize clustersOf items = clusters, clustersOf items' = clusters' at hclusters
  induction hclusters with
  | nil => rfl
  | cons hcluster _ ih => rw [List.flatMap_cons, List.flatMap_cons, closeCluster_perm titleKey hcluster, ih]

/-- The groups of a title. -/
def titleGroups (titleKey : String) : List TemporalGroup :=
  groupsOf titleKey
    ((agg.leftByFirst toLowercase thresholds).filter fun entry => titleOf toLowercase entry = titleKey)

theorem temporalGroups_eq_clusters :
    (agg.group toLowercase thresholds order).temporalGroups =
      ((agg.groupEphemeral toLowercase thresholds order).temporalClusters toLowercase order).map
        (·.2) := by
  rw [group, trimWindows_eq]
  rfl

theorem temporalGroups_group :
    (agg.group toLowercase thresholds order).temporalGroups =
      ((agg.groupEphemeral toLowercase thresholds order).titles toLowercase order).flatMap
        (agg.titleGroups toLowercase thresholds) := by
  set short := agg.groupEphemeral toLowercase thresholds order
  have hleft : short.windows.pairs.Perm (agg.leftByFirst toLowercase thresholds) :=
    agg.windows_leftByFirst toLowercase thresholds order
  rw [temporalGroups_eq_clusters, temporalClusters_eq, List.map_flatMap]
  refine List.flatMap_congr fun titleKey _ => ?_
  exact groupsOf_perm titleKey ((short.itemsOf_perm titleKey).trans (hleft.filter _))

theorem mem_titles_groupEphemeral {titleKey : String} :
    titleKey ∈ (agg.groupEphemeral toLowercase thresholds order).titles toLowercase order ↔
      ∃ entry ∈ agg.leftByFirst toLowercase thresholds, titleOf toLowercase entry = titleKey := by
  rw [mem_titles]
  simp only [(agg.windows_leftByFirst toLowercase thresholds order).mem_iff]

theorem titleGroups_ne_nil {titleKey : String} :
    agg.titleGroups toLowercase thresholds titleKey ≠ [] ↔
      ∃ entry ∈ agg.leftByFirst toLowercase thresholds,
        IsClustered toLowercase (agg.leftByFirst toLowercase thresholds) entry ∧
          titleOf toLowercase entry = titleKey := by
  set short := agg.groupEphemeral toLowercase thresholds fun _ => .ofEntries
  have hleft : short.windows.pairs.Perm (agg.leftByFirst toLowercase thresholds) :=
    agg.windows_leftByFirst toLowercase thresholds _
  have hgroups : agg.titleGroups toLowercase thresholds titleKey =
      groupsOf titleKey (short.itemsOf toLowercase (fun _ => .ofEntries) titleKey) :=
    groupsOf_perm titleKey ((short.itemsOf_perm titleKey).trans (hleft.filter _)).symm
  have hclustered : ∀ entry, IsClustered toLowercase (agg.leftByFirst toLowercase thresholds) entry ↔
      IsClustered toLowercase short.windows.pairs entry := fun entry =>
    isClustered_congr toLowercase hleft.symm entry
  have hitems : ∀ entry, entry ∈ (clustersOf
      (short.itemsOf toLowercase (fun _ => .ofEntries) titleKey)).flatten ↔
        entry ∈ agg.leftByFirst toLowercase thresholds ∧ titleOf toLowercase entry = titleKey := by
    intro entry
    rw [((clustersOf_flatten_perm _).trans (short.itemsOf_perm titleKey)).mem_iff, List.mem_filter,
      hleft.mem_iff, decide_eq_true_iff]
  rw [hgroups]
  constructor
  · intro hne
    obtain ⟨⟨ids, g⟩, hmem⟩ := List.exists_mem_of_ne_nil _ (mt List.map_eq_nil_iff.mpr hne)
    obtain ⟨cluster, hcluster, hclose⟩ := List.mem_flatMap.mp hmem
    match cluster, hcluster, hclose with
    | first :: second :: rest, hcluster, _ =>
      have hfirst := (hitems first).mp (List.mem_flatten.mpr ⟨_, hcluster, List.mem_cons_self⟩)
      refine ⟨first, hfirst.1, (hclustered first).mpr ?_, hfirst.2⟩
      exact (short.two_le_length_cluster hcluster List.mem_cons_self).mp (by simp)
  · rintro ⟨entry, hentry, hnear, htitle⟩
    obtain ⟨cluster, hcluster, hmem⟩ := List.mem_flatten.mp ((hitems entry).mpr ⟨hentry, htitle⟩)
    have hlength := (short.two_le_length_cluster hcluster hmem).mpr ((hclustered entry).mp hnear)
    match cluster, hcluster, hlength with
    | first :: second :: rest, hcluster, _ =>
      intro hnil
      have hclose := List.flatMap_eq_nil_iff.mp (List.map_eq_nil_iff.mp hnil) _ hcluster
      exact absurd hclose (List.cons_ne_nil _ _)

theorem titleKey_of_mem_titleGroups {titleKey : String} {g : TemporalGroup}
    (h : g ∈ agg.titleGroups toLowercase thresholds titleKey) : g.titleKey = titleKey := by
  obtain ⟨⟨ids, g⟩, hmem, rfl⟩ := List.mem_map.mp h
  obtain ⟨cluster, -, hclose⟩ := List.mem_flatMap.mp hmem
  match cluster, hclose with
  | first :: second :: rest, hclose =>
    obtain ⟨-, rfl⟩ := Prod.mk.inj (List.mem_singleton.mp hclose)
    rfl

/-- All clustered windows have one title. -/
def OneTitle : Prop :=
  ∀ entry ∈ agg.leftByFirst toLowercase thresholds, ∀ other ∈ agg.leftByFirst toLowercase thresholds,
    IsClustered toLowercase (agg.leftByFirst toLowercase thresholds) entry →
      IsClustered toLowercase (agg.leftByFirst toLowercase thresholds) other →
        titleOf toLowercase entry = titleOf toLowercase other

instance : Decidable (agg.OneTitle toLowercase thresholds) :=
  inferInstanceAs (Decidable (∀ entry ∈ _, ∀ other ∈ _, _ → _ → _))

variable {toLowercase thresholds}

/-- If only one title has groups, they are listed alike in any order. -/
theorem temporalGroups_eq (h : agg.OneTitle toLowercase thresholds) (order' : MapSite → IterOrder) :
    (agg.group toLowercase thresholds order).temporalGroups =
      (agg.group toLowercase thresholds order').temporalGroups := by
  rw [temporalGroups_group, temporalGroups_group]
  refine HashMap.flatMap_eq_of_perm ?_ fun titleKey _ titleKey' _ hne hne' => ?_
  · refine (List.perm_ext_iff_of_nodup (titles_nodup _) (titles_nodup _)).mpr fun titleKey => ?_
    rw [mem_titles_groupEphemeral, mem_titles_groupEphemeral]
  · obtain ⟨entry, hentry, hclustered, rfl⟩ := (agg.titleGroups_ne_nil toLowercase thresholds).mp hne
    obtain ⟨other, hother, hclustered', rfl⟩ := (agg.titleGroups_ne_nil toLowercase thresholds).mp hne'
    exact h entry hentry other hother hclustered hclustered'

/-- If two titles have groups, two orders put a group of another title first. -/
theorem exists_temporalGroups_ne (h : ¬ agg.OneTitle toLowercase thresholds) :
    ∃ order order' g, (agg.group toLowercase thresholds order).temporalGroups.head? = some g ∧
      ∀ g', (agg.group toLowercase thresholds order').temporalGroups.head? = some g' →
        g'.titleKey ≠ g.titleKey := by
  simp only [OneTitle, not_forall] at h
  obtain ⟨entry, hentry, other, hother, hclustered, hclustered', hne⟩ := h
  set forth : MapSite → IterOrder := fun _ => .ofEntries
  set back : MapSite → IterOrder := fun site => if site = .byTitle then .backwards else .ofEntries
  set titles := (agg.groupEphemeral toLowercase thresholds forth).titles toLowercase forth
  have hback : (agg.groupEphemeral toLowercase thresholds back).titles toLowercase back =
      titles.reverse := List.map_reverse
  have hnodup : titles.Nodup := titles_nodup _
  -- Both titles have groups.
  set shown := titles.filter fun titleKey => !(agg.titleGroups toLowercase thresholds titleKey).isEmpty
  have hshown : ∀ entry ∈ agg.leftByFirst toLowercase thresholds,
      IsClustered toLowercase (agg.leftByFirst toLowercase thresholds) entry →
        titleOf toLowercase entry ∈ shown := by
    intro entry hentry hclustered
    refine List.mem_filter.mpr ⟨?_, ?_⟩
    · exact (agg.mem_titles_groupEphemeral toLowercase thresholds forth).mpr ⟨entry, hentry, rfl⟩
    · simpa using (agg.titleGroups_ne_nil toLowercase thresholds).mpr ⟨entry, hentry, hclustered, rfl⟩
  have hfirst : titleOf toLowercase entry ∈ shown := hshown entry hentry hclustered
  have hsecond : titleOf toLowercase other ∈ shown := hshown other hother hclustered'
  have hgroups : (agg.group toLowercase thresholds forth).temporalGroups ≠ [] := by
    rw [temporalGroups_group]
    obtain ⟨hmem, hsome⟩ := List.mem_filter.mp hfirst
    intro hnil
    rw [List.flatMap_eq_nil_iff.mp hnil _ hmem] at hsome
    cases hsome
  obtain ⟨g, hg⟩ := Option.isSome_iff_exists.mp (List.isSome_head?.mpr hgroups)
  refine ⟨forth, back, g, hg, fun g' hg' heq => ?_⟩
  rw [temporalGroups_group] at hg hg'
  rw [hback] at hg'
  obtain ⟨titleKey, hhead, hmem⟩ := HashMap.head?_flatMap hg
  obtain ⟨titleKey', hhead', hmem'⟩ := HashMap.head?_flatMap hg'
  rw [titleKey_of_mem_titleGroups _ _ _ hmem, titleKey_of_mem_titleGroups _ _ _ hmem'] at heq
  rw [List.filter_reverse, List.head?_reverse, heq] at hhead'
  have hsingle : shown = [titleKey] := HashMap.eq_singleton (hnodup.filter _) hhead hhead'
  rw [hsingle, List.mem_singleton] at hfirst hsecond
  exact hne (hfirst.trans hsecond.symm)

/-! ### Trimming -/

variable (toLowercase thresholds) in
/-- No window is kept while another is dropped that was last seen at the same time. -/
def NoTie : Prop :=
  0 < thresholds.maxWindowsPerApp → ∀ entry ∈ agg.leftBySecond toLowercase thresholds,
    (agg.leftBySecond toLowercase thresholds).countP
        (fun other => entry.2.lastSeen < other.2.lastSeen) < thresholds.maxWindowsPerApp →
      (agg.leftBySecond toLowercase thresholds).countP
        (fun other => entry.2.lastSeen ≤ other.2.lastSeen) ≤ thresholds.maxWindowsPerApp

instance : Decidable (agg.NoTie toLowercase thresholds) := inferInstanceAs (Decidable (_ → _))

/-- Without ties at the cut, a window remains exactly if fewer windows than are kept were seen later. -/
theorem mem_group_windows (h : agg.NoTie toLowercase thresholds) (entry : WindowEntry) :
    entry ∈ (agg.group toLowercase thresholds order).windows.pairs ↔
      entry ∈ agg.leftBySecond toLowercase thresholds ∧ (0 < thresholds.maxWindowsPerApp →
        (agg.leftBySecond toLowercase thresholds).countP
          (fun other => entry.2.lastSeen < other.2.lastSeen) < thresholds.maxWindowsPerApp) := by
  set near := (agg.groupEphemeral toLowercase thresholds order).groupTemporal toLowercase order
  have hleft : near.windows.pairs.Perm (agg.leftBySecond toLowercase thresholds) :=
    agg.windows_leftBySecond toLowercase thresholds order
  have hsorted : (near.winVec order).Pairwise fun a b => b.2.lastSeen ≤ a.2.lastSeen :=
    Recency.sortDesc_sorted _ _
  have hwinVec : (near.winVec order).Perm (agg.leftBySecond toLowercase thresholds) :=
    near.winVec_perm.trans hleft
  show entry ∈ (near.trimWindows thresholds order).windows.pairs ↔ _
  rw [near.windows_trimWindows.mem_iff]
  by_cases htrim : IsTrimmed thresholds near
  · rw [if_pos htrim]
    constructor
    · intro hmem
      refine ⟨hwinVec.mem_iff.mp (List.mem_of_mem_take hmem), fun _ => ?_⟩
      rw [← hwinVec.countP_eq]
      exact Recency.countP_lt_of_mem_take hsorted hmem
    · rintro ⟨hmem, hfew⟩
      refine Recency.mem_take_of_countP_le hsorted (hwinVec.mem_iff.mpr hmem) ?_
      rw [hwinVec.countP_eq]
      exact h htrim.1 entry hmem (hfew htrim.1)
  · rw [if_neg htrim, hleft.mem_iff]
    refine (and_iff_left_of_imp fun hmem hpos => ?_).symm
    -- All windows are kept, and the window itself was not seen later.
    have hall : (agg.leftBySecond toLowercase thresholds).length ≤ thresholds.maxWindowsPerApp := by
      by_contra hmore
      refine htrim ⟨hpos, ?_⟩
      rw [HashMap.size, hleft.length_eq]
      exact not_le.mp hmore
    refine lt_of_lt_of_le (lt_of_le_of_ne List.countP_le_length fun heq => ?_) hall
    have hself := List.countP_eq_length.mp heq entry hmem
    simp at hself

theorem winVec_eq {trimmed : IterOrder} (h : order .trimmed = trimmed) : agg.winVec order =
    Recency.sortDesc (fun entry : WindowEntry => entry.2.lastSeen) (trimmed agg.windows.pairs) := by
  rw [winVec, HashMap.iter, h]

/-- With a tie at the cut, two orders keep different windows. -/
theorem exists_windows_ne (h : ¬ agg.NoTie toLowercase thresholds) :
    ∃ order order' entry, entry ∈ (agg.group toLowercase thresholds order).windows.pairs ∧
      entry ∉ (agg.group toLowercase thresholds order').windows.pairs := by
  simp only [NoTie, not_forall, not_le] at h
  obtain ⟨hpos, tied, htied, hlow, hhigh⟩ := h
  set forth : MapSite → IterOrder := fun _ => .ofEntries
  set back : MapSite → IterOrder := fun site => if site = .trimmed then .backwards else .ofEntries
  set near := (agg.groupEphemeral toLowercase thresholds forth).groupTemporal toLowercase forth
  -- The orders only differ in the last pass.
  have hsame : (agg.groupEphemeral toLowercase thresholds back).groupTemporal toLowercase back = near := rfl
  have hleft : near.windows.pairs.Perm (agg.leftBySecond toLowercase thresholds) :=
    agg.windows_leftBySecond toLowercase thresholds forth
  rw [← hleft.countP_eq] at hlow hhigh
  have htrim : IsTrimmed thresholds near := ⟨hpos, hhigh.trans_le List.countP_le_length⟩
  rw [Recency.countP_le_eq] at hhigh
  obtain ⟨entry, -, hkept, hdropped⟩ :=
    Recency.exists_notMem_take_reverse near.windows.pairs_nodup hlow hhigh
  refine ⟨forth, back, entry, ?_, ?_⟩
  · show entry ∈ (near.trimWindows thresholds forth).windows.pairs
    rw [near.windows_trimWindows.mem_iff, if_pos htrim,
      winVec_eq forth near (show forth .trimmed = .ofEntries from rfl), IterOrder.ofEntries_apply]
    exact hkept
  · have hgroup : agg.group toLowercase thresholds back = near.trimWindows thresholds back :=
      congrArg (trimWindows thresholds back) hsame
    rw [hgroup, near.windows_trimWindows.mem_iff, if_pos htrim,
      winVec_eq back near (show back .trimmed = .backwards from rfl), IterOrder.backwards_apply]
    exact hdropped

end Kronical.AggregatedActivity
