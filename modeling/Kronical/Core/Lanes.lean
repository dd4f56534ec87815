import Mathlib.Algebra.BigOperators.Group.Finset.Basic
import Mathlib.Tactic.Abel
import Kronical.Core.RealTime

/-!
# Nothing is lost in the lanes

A window of an app ends up in one of four lanes: it remains a window, it is a member of one ephemeral or
one temporal group, or it is trimmed (`aggregation_conserves`). What is shown of a window or a group is the
sum over the records of its windows, and their first and last instants.
-/

namespace Kronical

/-! ### What counts of the records -/

/-- The whole seconds from the record's start, or `since`, to its end, or `now`, if they are positive. -/
def wholeSeconds (since now : DateTime) (record : ActivityRecord) : Nat :=
  (numSeconds (record.endTime.getD now - max record.startTime since)).toNat

/-- The records with a positive number of whole seconds whose focus is as wanted. -/
def countedRecords (records : List ActivityRecord) (since now : DateTime)
    (wanted : WindowFocusInfo → Bool) : List ActivityRecord :=
  records.filter fun record => record.focusInfo.any wanted && 0 < wholeSeconds since now record

theorem clip_of_focus {since now : DateTime} {record : ActivityRecord} {focus : WindowFocusInfo}
    (hfocus : record.focusInfo = some focus) :
    clip since now record =
      if 0 < wholeSeconds since now record then
        some ⟨focus, max record.startTime since, record.endTime.getD now,
          wholeSeconds since now record⟩
      else none := by
  rw [clip, hfocus, Option.bind_some]
  dsimp only
  split_ifs with hend hpos hdur
  · -- A record that ends by `since` has no time that counts.
    have hzero := numSeconds_nonpos (sub_nonpos.mpr (hend.trans (le_max_right record.startTime since)))
    unfold wholeSeconds at hpos
    omega
  · rfl
  · unfold wholeSeconds at *
    omega
  · rfl
  · rfl
  · unfold wholeSeconds at *
    omega

theorem spans_counted (records : List ActivityRecord) (since now : DateTime)
    (wanted : WindowFocusInfo → Bool) :
    ((spans records since now).filter (wanted ·.focus)).map
        (fun s => (s.duration, s.recStart, s.recEnd)) =
      (countedRecords records since now wanted).map fun record =>
        (wholeSeconds since now record, max record.startTime since, record.endTime.getD now) := by
  induction records with
  | nil => rfl
  | cons record records ih =>
    rw [spans, List.filterMap_cons, countedRecords, List.filter_cons]
    cases hfocus : record.focusInfo with
    | none =>
      rw [show clip since now record = none by rw [clip, hfocus]; rfl]
      exact ih
    | some focus =>
      rw [clip_of_focus hfocus, Option.any_some]
      by_cases hpos : 0 < wholeSeconds since now record
      · rw [if_pos hpos, List.filter_cons]
        by_cases hwanted : wanted focus = true
        · rw [if_pos hwanted, if_pos (by simp [hwanted, hpos]), List.map_cons, List.map_cons]
          exact congrArg _ ih
        · rw [if_neg hwanted, if_neg (by simp [hwanted])]
          exact ih
      · rw [if_neg hpos, if_neg (by simp [hpos])]
        exact ih

/-- The counted records of an app. -/
def appRecords (records : List ActivityRecord) (since now : DateTime) (key : Nat × Nat) :
    List ActivityRecord :=
  countedRecords records since now fun focus => appKey focus = key

/-- The counted records of a window of an app. -/
def windowRecords (records : List ActivityRecord) (since now : DateTime) (key : Nat × Nat) (id : Nat) :
    List ActivityRecord :=
  countedRecords records since now fun focus => appKey focus = key && isTitled focus && focus.windowId = id

/-- The ids of the windows of an app. -/
def titledIds (records : List ActivityRecord) (since now : DateTime) (key : Nat × Nat) : Finset Nat :=
  ((((appRecords records since now key).filterMap (·.focusInfo)).filter isTitled).map
    (·.windowId)).toFinset

section Records

variable (records : List ActivityRecord) (since now : DateTime) (key : Nat × Nat)

theorem appSpans_durations :
    (appSpans records since now key).map (·.duration) =
      (appRecords records since now key).map (wholeSeconds since now) := by
  have hcounted := congrArg (List.map fun x : Nat × DateTime × DateTime => x.1)
    (spans_counted records since now fun focus => appKey focus = key)
  rwa [List.map_map, List.map_map] at hcounted

/-- The spans of a window of an app. -/
def windowSpans (records : List ActivityRecord) (since now : DateTime) (key : Nat × Nat) (id : Nat) :
    List Span :=
  ((appSpans records since now key).filter fun s => isTitled s.focus).filter
    fun s => s.focus.windowId = id

theorem windowSpans_counted (id : Nat) :
    (windowSpans records since now key id).map (fun s => (s.duration, s.recStart, s.recEnd)) =
      (windowRecords records since now key id).map fun record =>
        (wholeSeconds since now record, max record.startTime since, record.endTime.getD now) := by
  rw [windowRecords, ← spans_counted, windowSpans, appSpans, List.filter_filter, List.filter_filter]
  congr 1
  refine List.filter_congr fun s _ => ?_
  cases decide (appKey s.focus = key) <;> cases isTitled s.focus <;>
    cases decide (s.focus.windowId = id) <;> rfl

theorem mem_titledIds {id : Nat} :
    id ∈ titledIds records since now key ↔ windowSpans records since now key id ≠ [] := by
  have hlength := congrArg List.length (windowSpans_counted records since now key id)
  rw [List.length_map, List.length_map] at hlength
  rw [← List.length_pos_iff, hlength, List.length_pos_iff, windowRecords, countedRecords, Ne,
    List.filter_eq_nil_iff]
  simp only [titledIds, appRecords, countedRecords, List.mem_toFinset, List.mem_map, List.mem_filter,
    List.mem_filterMap, not_forall, not_not, Option.any_eq_true, Bool.and_eq_true, decide_eq_true_eq]
  constructor
  · rintro ⟨focus, ⟨⟨record, ⟨hmem, ⟨_, hfocus', hkey⟩, hpos⟩, hfocus⟩, htitled⟩, hid⟩
    rw [hfocus] at hfocus'
    obtain rfl := Option.some.inj hfocus'
    exact ⟨record, hmem, ⟨focus, hfocus, ⟨hkey, htitled⟩, hid⟩, hpos⟩
  · rintro ⟨record, hmem, ⟨focus, hfocus, ⟨hkey, htitled⟩, hid⟩, hpos⟩
    exact ⟨focus, ⟨⟨record, ⟨hmem, ⟨focus, hfocus, hkey⟩, hpos⟩, hfocus⟩, htitled⟩, hid⟩

/-! ### Windows -/

/-- What a window of an app comes to. -/
structure WindowTally (entry : WindowEntry) : Prop where
  duration : entry.2.durationSeconds =
    ((windowRecords records since now key entry.1).map (wholeSeconds since now)).sum
  firstSeen : IsLeast {t | ∃ record ∈ windowRecords records since now key entry.1,
    t = max record.startTime since} entry.2.firstSeen
  lastSeen : IsGreatest {t | ∃ record ∈ windowRecords records since now key entry.1,
    t = record.endTime.getD now} entry.2.lastSeen

theorem setOf_map_eq {α β τ : Type*} {f : α → τ} {g : β → τ} {l : List α} {l' : List β}
    (h : l.map f = l'.map g) : {t | ∃ x ∈ l, t = f x} = {t | ∃ y ∈ l', t = g y} := by
  ext t
  have hmem : t ∈ l.map f ↔ t ∈ l'.map g := by rw [h]
  simpa only [List.mem_map, eq_comm, Set.mem_ofPred_eq] using hmem

variable {records since now key}

theorem windowTally_of_gather {entry : WindowEntry}
    (h : HashMap.gather WindowActivity.fresh WindowActivity.add
      (windowSpans records since now key entry.1) = some entry.2)
    (hfits : ((windowSpans records since now key entry.1).map (·.duration)).sum < 2 ^ 64) :
    WindowTally records since now key entry := by
  have hcounted := windowSpans_counted records since now key entry.1
  have hdurations := congrArg (List.map fun x : Nat × DateTime × DateTime => x.1) hcounted
  have hstarts := congrArg (List.map fun x : Nat × DateTime × DateTime => x.2.1) hcounted
  have hends := congrArg (List.map fun x : Nat × DateTime × DateTime => x.2.2) hcounted
  rw [List.map_map, List.map_map] at hdurations hstarts hends
  change (windowSpans records since now key entry.1).map (·.duration) = _ at hdurations
  replace hstarts := setOf_map_eq hstarts
  replace hends := setOf_map_eq hends
  cases hspans : windowSpans records since now key entry.1 with
  | nil =>
    rw [hspans] at h
    cases h
  | cons s ss =>
    rw [hspans] at h hdurations hstarts hends hfits
    have hduration : ((s :: ss).foldl WindowActivity.add (.fresh s)).durationSeconds =
        (s :: ss).foldl (fun t s => (t + s.duration) % 2 ^ 64) 0 :=
      (List.foldl_hom WindowActivity.durationSeconds fun _ _ => rfl).symm
    have hfirst : ((s :: ss).foldl WindowActivity.add (.fresh s)).firstSeen =
        (s :: ss).foldl (fun t s => min t s.recStart) s.recStart :=
      (List.foldl_hom WindowActivity.firstSeen fun _ _ => rfl).symm
    have hlast : ((s :: ss).foldl WindowActivity.add (.fresh s)).lastSeen =
        (s :: ss).foldl (fun t s => max t s.recEnd) s.recEnd :=
      (List.foldl_hom WindowActivity.lastSeen fun _ _ => rfl).symm
    have hentry := Option.some.inj h
    constructor
    · rw [← hentry, hduration, Folds.wrapping_eq (by rwa [Nat.zero_add]), Nat.zero_add, hdurations]
      rfl
    · rw [← hentry, hfirst]
      exact hstarts ▸ Folds.isLeast_min_cons (fun s : Span => s.recStart) s ss
    · rw [← hentry, hlast]
      exact hends ▸ Folds.isGreatest_max_cons (fun s : Span => s.recEnd) s ss

/-! ### Groups -/

/-- A group, or a single window, shows the sum over its members, and their first and last instants. -/
structure Summarises (records : List ActivityRecord) (since now : DateTime) (key : Nat × Nat)
    (ids : Finset Nat) (total : Nat) (firstSeen lastSeen : DateTime) : Prop where
  total : total = ∑ id ∈ ids, ((windowRecords records since now key id).map (wholeSeconds since now)).sum
  firstSeen : IsLeast {t | ∃ id ∈ ids, ∃ record ∈ windowRecords records since now key id,
    t = max record.startTime since} firstSeen
  lastSeen : IsGreatest {t | ∃ id ∈ ids, ∃ record ∈ windowRecords records since now key id,
    t = record.endTime.getD now} lastSeen

theorem summarises_of_members {members : List WindowEntry} (hnodup : (members.map (·.1)).Nodup)
    (htally : ∀ entry ∈ members, WindowTally records since now key entry) {total : Nat}
    {first last : DateTime} (htotal : total = (members.map (·.2.durationSeconds)).sum)
    (hfirst : IsLeast {t | ∃ entry ∈ members, t = entry.2.firstSeen} first)
    (hlast : IsGreatest {t | ∃ entry ∈ members, t = entry.2.lastSeen} last) :
    Summarises records since now key (members.map (·.1)).toFinset total first last := by
  constructor
  · rw [htotal, List.sum_toFinset _ hnodup, List.map_map]
    exact congrArg List.sum (List.map_congr_left fun entry hentry => (htally entry hentry).duration)
  · have hparts := Folds.isLeast_parts _ (fun entry hentry => (htally entry hentry).firstSeen) hfirst
    simpa using hparts
  · have hparts := Folds.isGreatest_parts _ (fun entry hentry => (htally entry hentry).lastSeen) hlast
    simpa using hparts

end Records

namespace AggregatedActivity

theorem ephemeralOf_folds {titleKey : String} {members : List WindowEntry} {g : EphemeralGroup}
    (h : ephemeralOf titleKey members = some g)
    (hfits : (members.map (·.2.durationSeconds)).sum < 2 ^ 64) :
    g.totalDurationSeconds = (members.map (·.2.durationSeconds)).sum ∧
      IsLeast {t | ∃ entry ∈ members, t = entry.2.firstSeen} g.firstSeen ∧
      IsGreatest {t | ∃ entry ∈ members, t = entry.2.lastSeen} g.lastSeen := by
  cases members with
  | nil => cases h
  | cons entry members =>
    have htotal : ((entry :: members).foldl EphemeralGroup.add
        (.fresh titleKey entry.2)).totalDurationSeconds =
          (entry :: members).foldl (fun t e => (t + e.2.durationSeconds) % 2 ^ 64) 0 :=
      (List.foldl_hom EphemeralGroup.totalDurationSeconds fun _ _ => rfl).symm
    have hfirst : ((entry :: members).foldl EphemeralGroup.add
        (.fresh titleKey entry.2)).firstSeen =
          (entry :: members).foldl (fun t e => min t e.2.firstSeen) entry.2.firstSeen :=
      (List.foldl_hom EphemeralGroup.firstSeen fun _ _ => rfl).symm
    have hlast : ((entry :: members).foldl EphemeralGroup.add
        (.fresh titleKey entry.2)).lastSeen =
          (entry :: members).foldl (fun t e => max t e.2.lastSeen) entry.2.lastSeen :=
      (List.foldl_hom EphemeralGroup.lastSeen fun _ _ => rfl).symm
    rw [← Option.some.inj h, htotal, hfirst, hlast, Folds.wrapping_eq (by rwa [Nat.zero_add])]
    exact ⟨Nat.zero_add _, Folds.isLeast_min_cons (fun e : WindowEntry => e.2.firstSeen) _ _,
      Folds.isGreatest_max_cons (fun e : WindowEntry => e.2.lastSeen) _ _⟩

theorem distinctIds_buildTemporalGroup (titleKey : String) (first : WindowEntry)
    (rest : List WindowEntry) :
    (buildTemporalGroup titleKey first rest).distinctIds = ((first :: rest).map (·.1)).toFinset := by
  show (first :: rest).foldl (fun ids w => insert w.1 ids) (∅ : Finset Nat) = _
  suffices h : ∀ (l : List WindowEntry) (ids : Finset Nat),
      l.foldl (fun ids w => insert w.1 ids) ids = ids ∪ (l.map (·.1)).toFinset from
    (h _ _).trans (Finset.empty_union _)
  intro l
  induction l with
  | nil => simp
  | cons entry l ih =>
    intro ids
    rw [List.foldl_cons, ih]
    ext id
    simp

theorem buildTemporalGroup_seen (titleKey : String) (first : WindowEntry) (rest : List WindowEntry) :
    IsLeast {t | ∃ entry ∈ first :: rest, t = entry.2.firstSeen}
        (buildTemporalGroup titleKey first rest).firstSeen ∧
      IsGreatest {t | ∃ entry ∈ first :: rest, t = entry.2.lastSeen}
        (buildTemporalGroup titleKey first rest).lastSeen := by
  constructor
  · have hmin : (fun (t : DateTime) (w : WindowEntry) => if w.2.firstSeen < t then w.2.firstSeen else t) =
        fun t w => min t w.2.firstSeen := funext fun t => funext fun w => Folds.ite_eq_min t _
    show IsLeast _ ((first :: rest).foldl _ first.2.firstSeen)
    rw [hmin]
    exact Folds.isLeast_min_cons (fun w : WindowEntry => w.2.firstSeen) first rest
  · have hmax : (fun (t : DateTime) (w : WindowEntry) => if t < w.2.lastSeen then w.2.lastSeen else t) =
        fun t w => max t w.2.lastSeen := funext fun t => funext fun w => Folds.ite_eq_max t _
    show IsGreatest _ ((first :: rest).foldl _ first.2.lastSeen)
    rw [hmax]
    exact Folds.isGreatest_max_cons (fun w : WindowEntry => w.2.lastSeen) first rest

theorem buildTemporalGroup_total (titleKey : String) (first : WindowEntry) (rest : List WindowEntry) :
    (buildTemporalGroup titleKey first rest).totalDurationSeconds =
      min ((first :: rest).map (·.2.durationSeconds)).sum (2 ^ 64 - 1) := by
  refine (Folds.saturating_eq (2 ^ 64 - 1) (fun w : WindowEntry => w.2.durationSeconds) _
    (Nat.zero_le _)).trans ?_
  rw [Nat.zero_add]

/-! ### Lanes -/

/-- The ids of the app's windows, in the order of the map. -/
def windowIds (agg : AggregatedActivity) : List Nat := agg.windows.pairs.map (·.1)

/-- The ids in the ephemeral groups, one group after the other. -/
def ephemeralIds (agg : AggregatedActivity) : Multiset Nat :=
  Multiset.bind (agg.ephemeralGroups.pairs : Multiset (String × EphemeralGroup)) fun g =>
    g.2.distinctIds.val

/-- The ids in the temporal groups, one group after the other. -/
def temporalIds (agg : AggregatedActivity) : Multiset Nat :=
  Multiset.bind (agg.temporalGroups : Multiset TemporalGroup) fun g => g.distinctIds.val

section Lanes

variable (toLowercase : String → String) (thresholds : Thresholds) (order : MapSite → IterOrder)
  (agg : AggregatedActivity)

theorem windowIds_groupEphemeral (hnone : agg.ephemeralGroups = ∅) :
    (agg.windowIds : Multiset Nat) =
      (agg.groupEphemeral toLowercase thresholds order).windowIds +
        (agg.groupEphemeral toLowercase thresholds order).ephemeralIds := by
  have hkept : (agg.groupEphemeral toLowercase thresholds order).ephemeralGroups.pairs.Perm
      (agg.kept toLowercase thresholds order) := by
    rw [groupEphemeral_eq, hnone]
    exact HashMap.pairs_insertAll agg.kept_nodup
  have hids : ∀ g ∈ agg.kept toLowercase thresholds order, g.2.distinctIds.val =
      (((shortWith toLowercase thresholds agg.windows.pairs g.1).map (·.1) : List Nat) :
        Multiset Nat) := by
    rintro ⟨titleKey, g⟩ hg
    rw [distinctIds_ephemeralOf (agg.mem_kept.mp hg).1]
    exact congrArg _ (agg.ids_nodup_shortWith titleKey).dedup
  rw [ephemeralIds, Multiset.coe_eq_coe.mpr hkept, Multiset.bind_congr hids, Multiset.coe_bind,
    ← List.map_flatMap, Multiset.coe_add, Multiset.coe_eq_coe, windowIds, windowIds]
  refine List.Perm.trans ?_ (((agg.windows_groupEphemeral.map _).symm).append
    (agg.kept_members_perm.symm.map _))
  rw [← List.map_append]
  refine List.Perm.map _ (List.perm_append_comm.trans ?_).symm
  simpa only [decide_not] using List.filter_append_perm
    (fun entry => decide (IsEphemeral toLowercase thresholds agg.windows.pairs entry)) _

theorem windowIds_groupTemporal :
    (agg.windowIds : Multiset Nat) = (agg.groupTemporal toLowercase order).windowIds +
      (agg.groupTemporal toLowercase order).temporalIds := by
  have hids : ∀ c ∈ agg.temporalClusters toLowercase order,
      c.2.distinctIds.val = (c.1 : Multiset Nat) := by
    rintro ⟨ids, g⟩ hc
    obtain ⟨titleKey, first, second, rest, hcluster, rfl, rfl⟩ := agg.mem_temporalClusters hc
    rw [distinctIds_buildTemporalGroup]
    exact congrArg _ (agg.cluster_sub hcluster).2.dedup
  have hgroups : (agg.groupTemporal toLowercase order).temporalIds =
      (((agg.temporalClusters toLowercase order).flatMap (·.1) : List Nat) : Multiset Nat) := by
    show Multiset.bind (((agg.temporalClusters toLowercase order).map (·.2) : List TemporalGroup) :
      Multiset TemporalGroup) _ = _
    rw [← Multiset.map_coe, Multiset.bind_map, Multiset.bind_congr hids, Multiset.coe_bind]
  rw [hgroups, Multiset.coe_add, Multiset.coe_eq_coe, windowIds, windowIds]
  refine List.Perm.trans ?_ (((agg.windows_groupTemporal.map _).symm).append
    agg.clusters_members_perm.symm)
  rw [← List.map_append]
  refine List.Perm.map _ (List.perm_append_comm.trans ?_).symm
  simpa only [decide_not] using List.filter_append_perm
    (fun entry => decide (IsClustered toLowercase agg.windows.pairs entry)) _

theorem windows_trimmed :
    ∃ trimmed : List WindowEntry,
      agg.windows.pairs.Perm ((agg.trimWindows thresholds order).windows.pairs ++ trimmed) ∧
      (trimmed ≠ [] → 0 < thresholds.maxWindowsPerApp ∧
        (agg.trimWindows thresholds order).windows.size = thresholds.maxWindowsPerApp ∧
        ∀ entry ∈ trimmed, ∀ left ∈ (agg.trimWindows thresholds order).windows.pairs,
          entry.2.lastSeen ≤ left.2.lastSeen) := by
  have hwindows : (agg.trimWindows thresholds order).windows.pairs.Perm _ := agg.windows_trimWindows
  have hsorted := Recency.sortDesc_sorted (fun entry : WindowEntry => entry.2.lastSeen)
    (agg.windows.iter (order .trimmed))
  by_cases h : IsTrimmed thresholds agg
  · rw [if_pos h] at hwindows
    have hsplit := List.take_append_drop thresholds.maxWindowsPerApp (agg.winVec order)
    have hperm : (agg.winVec order).Perm agg.windows.pairs := agg.winVec_perm
    refine ⟨(agg.winVec order).drop thresholds.maxWindowsPerApp, ?_, fun _ => ⟨h.1, ?_, ?_⟩⟩
    · refine hperm.symm.trans (List.Perm.trans (List.Perm.of_eq hsplit.symm) ?_)
      exact hwindows.symm.append_right _
    · have hlength : (agg.winVec order).length = agg.windows.size := hperm.length_eq
      have hmore := h.2
      rw [HashMap.size, hwindows.length_eq, List.length_take]
      omega
    · intro entry hentry left hleft
      have hrecent : (agg.winVec order).Pairwise fun a b => b.2.lastSeen ≤ a.2.lastSeen := hsorted
      rw [← hsplit] at hrecent
      exact (List.pairwise_append.mp hrecent).2.2 left (hwindows.mem_iff.mp hleft) entry hentry
  · rw [if_neg h] at hwindows
    exact ⟨[], by rw [List.append_nil]; exact hwindows.symm, fun hne => absurd rfl hne⟩

theorem mem_of_mem_groupEphemeral {entry : WindowEntry}
    (h : entry ∈ (agg.groupEphemeral toLowercase thresholds order).windows.pairs) :
    entry ∈ agg.windows.pairs :=
  (List.mem_filter.mp (agg.windows_groupEphemeral.mem_iff.mp h)).1

theorem mem_of_mem_groupTemporal {entry : WindowEntry}
    (h : entry ∈ (agg.groupTemporal toLowercase order).windows.pairs) : entry ∈ agg.windows.pairs :=
  (List.mem_filter.mp (agg.windows_groupTemporal.mem_iff.mp h)).1

theorem group_lanes (hnone : agg.ephemeralGroups = ∅) :
    ∃ trimmed : List WindowEntry,
      (agg.windowIds : Multiset Nat) =
        (agg.group toLowercase thresholds order).windowIds +
            (agg.group toLowercase thresholds order).ephemeralIds +
            (agg.group toLowercase thresholds order).temporalIds +
          (trimmed.map (·.1) : List Nat) ∧
      (∀ entry ∈ trimmed, entry ∈ agg.windows.pairs) ∧
      (∀ entry ∈ (agg.group toLowercase thresholds order).windows.pairs, entry ∈ agg.windows.pairs) ∧
      (trimmed ≠ [] → 0 < thresholds.maxWindowsPerApp ∧
        (agg.group toLowercase thresholds order).windows.size = thresholds.maxWindowsPerApp ∧
        ∀ entry ∈ trimmed, ∀ left ∈ (agg.group toLowercase thresholds order).windows.pairs,
          entry.2.lastSeen ≤ left.2.lastSeen) := by
  set short := agg.groupEphemeral toLowercase thresholds order with hshort
  set near := short.groupTemporal toLowercase order with hnear
  have hgroup : agg.group toLowercase thresholds order = near.trimWindows thresholds order := rfl
  obtain ⟨trimmed, hperm, hmost⟩ := near.windows_trimmed thresholds order
  have hsub : ∀ entry ∈ near.windows.pairs, entry ∈ agg.windows.pairs := fun entry hentry =>
    agg.mem_of_mem_groupEphemeral toLowercase thresholds order
      (short.mem_of_mem_groupTemporal toLowercase order hentry)
  have hids : (near.windowIds : Multiset Nat) =
      (near.trimWindows thresholds order).windowIds + (trimmed.map (·.1) : List Nat) := by
    rw [Multiset.coe_add, Multiset.coe_eq_coe]
    exact (hperm.map _).trans (List.Perm.of_eq List.map_append)
  have hephemeral : (near.trimWindows thresholds order).ephemeralIds = short.ephemeralIds := by
    rw [trimWindows_eq]
    rfl
  have htemporal : (near.trimWindows thresholds order).temporalIds = near.temporalIds := by
    rw [trimWindows_eq]
    rfl
  rw [hgroup]
  refine ⟨trimmed, ?_, ?_, ?_, hmost⟩
  · rw [agg.windowIds_groupEphemeral toLowercase thresholds order hnone, ← hshort,
      short.windowIds_groupTemporal toLowercase order, ← hnear, hids, hephemeral, htemporal]
    abel
  · exact fun entry hentry => hsub entry (hperm.mem_iff.mpr (List.mem_append_right _ hentry))
  · exact fun entry hentry => hsub entry (hperm.mem_iff.mpr (List.mem_append_left _ hentry))

theorem ephemeral_members (hnone : agg.ephemeralGroups = ∅) {g : String × EphemeralGroup}
    (hg : g ∈ (agg.group toLowercase thresholds order).ephemeralGroups.pairs) :
    ∃ members, ephemeralOf g.1 members = some g.2 ∧ (∀ entry ∈ members, entry ∈ agg.windows.pairs) ∧
      (members.map (·.1)).Nodup := by
  rw [group, trimWindows_eq] at hg
  have hlookup := HashMap.mem_pairs.mp hg
  refine ⟨_, ((agg.lookup_groupEphemeral hnone g.1 g.2).mp hlookup).1, ?_,
    agg.ids_nodup_shortWith g.1⟩
  intro entry hentry
  exact (List.mem_filter.mp (List.mem_filter.mp hentry).1).1

theorem temporal_members {g : TemporalGroup}
    (hg : g ∈ (agg.group toLowercase thresholds order).temporalGroups) :
    ∃ titleKey first rest, g = buildTemporalGroup titleKey first rest ∧
      (∀ entry ∈ first :: rest, entry ∈ agg.windows.pairs) ∧ ((first :: rest).map (·.1)).Nodup := by
  rw [group, trimWindows_eq] at hg
  obtain ⟨⟨ids, g⟩, hmem, rfl⟩ := List.mem_map.mp hg
  obtain ⟨titleKey, first, second, rest, hcluster, -, rfl⟩ := mem_temporalClusters _ hmem
  obtain ⟨hsub, hnodup⟩ := cluster_sub _ hcluster
  exact ⟨titleKey, first, second :: rest, rfl, fun entry hentry =>
    agg.mem_of_mem_groupEphemeral toLowercase thresholds order (hsub entry hentry), hnodup⟩

end Lanes

end AggregatedActivity

/-! ### The apps of the result -/

theorem mem_aggregate {toLowercase : String → String} {order : AggregateOrder}
    {records : List ActivityRecord} {since now : DateTime} {thresholds : Thresholds}
    {agg : AggregatedActivity} :
    agg ∈ aggregateActivitiesSince toLowercase order records since now thresholds ↔
      ∃ app ∈ (appMap records since now).pairs,
        app.2.group toLowercase thresholds (order.inApp app.1) = agg := by
  rw [aggregateActivitiesSince, (Recency.sortDesc_perm _ _).mem_iff, List.mem_map]
  exact exists_congr fun app => and_congr_left fun _ => HashMap.iter_perm.mem_iff

section App

variable {records : List ActivityRecord} {since now : DateTime} {key : Nat × Nat}
  {app : AggregatedActivity}

theorem lookup_window (h : app.OfSpans key (appSpans records since now key)) (id : Nat) :
    app.windows.lookup id = HashMap.gather WindowActivity.fresh WindowActivity.add
      (windowSpans records since now key id) := by
  rw [h.windows, HashMap.lookup_tally]
  rfl

theorem windowIds_eq (h : app.OfSpans key (appSpans records since now key)) :
    (app.windowIds : Multiset Nat) = (titledIds records since now key).val := by
  refine (Multiset.Nodup.ext (Multiset.coe_nodup.mpr app.windows.keys_nodup)
    (Finset.nodup _)).mpr fun id => ?_
  rw [Finset.mem_val, mem_titledIds, Multiset.mem_coe]
  show id ∈ app.windows.pairs.map Prod.fst ↔ _
  rw [h.windows, HashMap.mem_keys_tally, windowSpans, Ne, List.filter_eq_nil_iff]
  simp [and_assoc]

theorem sum_windows_le (h : app.OfSpans key (appSpans records since now key))
    (hfits : ((appRecords records since now key).map (wholeSeconds since now)).sum < 2 ^ 64)
    {members : List WindowEntry} (hsub : ∀ entry ∈ members, entry ∈ app.windows.pairs)
    (hnodup : (members.map (·.1)).Nodup) :
    (∀ entry ∈ members, WindowTally records since now key entry) ∧
      (members.map (·.2.durationSeconds)).sum < 2 ^ 64 := by
  have hle : ∀ {ids : List Nat}, ids.Nodup →
      (ids.map fun id => ((windowSpans records since now key id).map (·.duration)).sum).sum ≤
        ((appRecords records since now key).map (wholeSeconds since now)).sum := by
    intro ids hids
    refine (HashMap.sum_filter_le (fun s : Span => s.focus.windowId) hids (·.duration)
      ((appSpans records since now key).filter fun s => isTitled s.focus)).trans ?_
    rw [← appSpans_durations]
    exact (List.filter_sublist.map _).sum_le_sum fun _ _ => Nat.zero_le _
  have htally : ∀ entry ∈ members, WindowTally records since now key entry := by
    intro entry hentry
    refine windowTally_of_gather ?_ ?_
    · rw [← lookup_window h]
      exact HashMap.mem_pairs.mp (hsub entry hentry)
    · have hone := hle (List.nodup_singleton entry.1)
      rw [List.map_singleton, List.sum_singleton] at hone
      exact hone.trans_lt hfits
  refine ⟨htally, lt_of_eq_of_lt ?_ ((hle hnodup).trans_lt hfits)⟩
  rw [List.map_map]
  refine congrArg List.sum (List.map_congr_left fun entry hentry => ?_)
  have hcounted := congrArg (List.map fun x : Nat × DateTime × DateTime => x.1)
    (windowSpans_counted records since now key entry.1)
  rw [List.map_map, List.map_map] at hcounted
  rw [(htally entry hentry).duration]
  exact congrArg List.sum hcounted.symm

section Fits

variable (h : app.OfSpans key (appSpans records since now key))
  (hfits : ((appRecords records since now key).map (wholeSeconds since now)).sum < 2 ^ 64)

include h hfits

theorem summarises_window {left : WindowEntry} (hleft : left ∈ app.windows.pairs) :
    Summarises records since now key {left.1} left.2.durationSeconds left.2.firstSeen
      left.2.lastSeen := by
  have hone : ([left].map (·.1)).Nodup := List.nodup_singleton left.1
  have hsub : ∀ entry ∈ [left], entry ∈ app.windows.pairs := fun entry hentry =>
    List.mem_singleton.mp hentry ▸ hleft
  have hsum : Summarises records since now key ([left].map (·.1)).toFinset
      left.2.durationSeconds left.2.firstSeen left.2.lastSeen :=
    summarises_of_members hone (sum_windows_le h hfits hsub hone).1 (by simp) (by simp) (by simp)
  simpa using hsum

variable (toLowercase : String → String) (thresholds : Thresholds) (order : MapSite → IterOrder)

theorem summarises_ephemeral {g : String × EphemeralGroup}
    (hg : g ∈ (app.group toLowercase thresholds order).ephemeralGroups.pairs) :
    Summarises records since now key g.2.distinctIds g.2.totalDurationSeconds g.2.firstSeen
      g.2.lastSeen := by
  obtain ⟨members, hfold, hsub, hmembers⟩ :=
    app.ephemeral_members toLowercase thresholds order h.ephemeralGroups hg
  obtain ⟨htally, hsum⟩ := sum_windows_le h hfits hsub hmembers
  obtain ⟨htotal, hfirst, hlast⟩ := AggregatedActivity.ephemeralOf_folds hfold hsum
  rw [AggregatedActivity.distinctIds_ephemeralOf hfold]
  exact summarises_of_members hmembers htally htotal hfirst hlast

theorem summarises_temporal {g : TemporalGroup}
    (hg : g ∈ (app.group toLowercase thresholds order).temporalGroups) :
    Summarises records since now key g.distinctIds g.totalDurationSeconds g.firstSeen g.lastSeen := by
  obtain ⟨titleKey, first, rest, rfl, hsub, hmembers⟩ :=
    app.temporal_members toLowercase thresholds order hg
  obtain ⟨htally, hsum⟩ := sum_windows_le h hfits hsub hmembers
  obtain ⟨hfirst, hlast⟩ := AggregatedActivity.buildTemporalGroup_seen titleKey first rest
  have htotal := AggregatedActivity.buildTemporalGroup_total titleKey first rest
  rw [min_eq_left (by omega)] at htotal
  rw [AggregatedActivity.distinctIds_buildTemporalGroup]
  exact summarises_of_members hmembers htally htotal hfirst hlast

end Fits

end App

/-- For every list of records, `since`, `now`, thresholds and orders of iteration, and every app of the
result whose seconds fit a `u64`: its total is the sum over its records; the ids of its windows are
partitioned into the windows that remain, the members of its ephemeral groups, those of its temporal groups
and the trimmed ones; if there are trimmed ones, just as many windows remain as are kept, and none of them
was last seen before a trimmed one; and each window and group shows the sum over its members' records and
their first and last instants. -/
theorem aggregation_conserves (toLowercase : String → String) (order : AggregateOrder)
    (records : List ActivityRecord) (since now : DateTime) (thresholds : Thresholds)
    (agg : AggregatedActivity)
    (hagg : agg ∈ aggregateActivitiesSince toLowercase order records since now thresholds)
    (hfits : ((appRecords records since now agg.key).map (wholeSeconds since now)).sum < 2 ^ 64) :
    agg.totalDurationSeconds =
        ((appRecords records since now agg.key).map (wholeSeconds since now)).sum ∧
      (∃ trimmed : Finset Nat,
        (agg.windowIds : Multiset Nat) + agg.ephemeralIds + agg.temporalIds + trimmed.val =
          (titledIds records since now agg.key).val ∧
        (trimmed.Nonempty → 0 < thresholds.maxWindowsPerApp ∧
          agg.windows.size = thresholds.maxWindowsPerApp ∧
          ∀ id ∈ trimmed, ∀ record ∈ windowRecords records since now agg.key id,
            ∀ left ∈ agg.windows.pairs, record.endTime.getD now ≤ left.2.lastSeen)) ∧
      (∀ left ∈ agg.windows.pairs, Summarises records since now agg.key {left.1}
        left.2.durationSeconds left.2.firstSeen left.2.lastSeen) ∧
      (∀ g ∈ agg.ephemeralGroups.pairs, Summarises records since now agg.key g.2.distinctIds
        g.2.totalDurationSeconds g.2.firstSeen g.2.lastSeen) ∧
      ∀ g ∈ agg.temporalGroups, Summarises records since now agg.key g.distinctIds
        g.totalDurationSeconds g.firstSeen g.lastSeen := by
  obtain ⟨⟨key, app⟩, happ, rfl⟩ := mem_aggregate.mp hagg
  have hspans := ofSpans_of_mem happ
  have hkey : (app.group toLowercase thresholds (order.inApp key)).key = key := by
    rw [AggregatedActivity.group_leaves]
    exact hspans.key
  simp only [hkey] at hfits ⊢
  obtain ⟨trimmed, hids, htrimmed, hleft, hmost⟩ :=
    app.group_lanes toLowercase thresholds (order.inApp key) hspans.ephemeralGroups
  have hnodup : (trimmed.map (·.1)).Nodup := by
    have hall := Multiset.coe_nodup.mpr app.windows.keys_nodup
    change ((app.windowIds : Multiset Nat)).Nodup at hall
    rw [hids] at hall
    exact Multiset.coe_nodup.mp (Multiset.nodup_add.mp hall).2.1
  refine ⟨?_, ⟨(trimmed.map (·.1)).toFinset, ?_, ?_⟩, ?_, ?_, ?_⟩
  · rw [AggregatedActivity.group_total, hspans.total, ← appSpans_durations]
    refine (Folds.wrapping_eq ?_).trans (Nat.zero_add _)
    rwa [Nat.zero_add, appSpans_durations]
  · rw [← windowIds_eq hspans, hids]
    exact congrArg _ (congrArg _ hnodup.dedup)
  · intro hsome
    have hne : trimmed ≠ [] := by
      rintro rfl
      exact Finset.not_nonempty_empty hsome
    obtain ⟨hpos, hsize, hrecent⟩ := hmost hne
    refine ⟨hpos, hsize, ?_⟩
    intro id hid record hrecord left hleft
    obtain ⟨entry, hentry, rfl⟩ := List.mem_map.mp (List.mem_toFinset.mp hid)
    have htally := (sum_windows_le hspans hfits htrimmed hnodup).1 entry hentry
    exact (htally.lastSeen.2 ⟨record, hrecord, rfl⟩).trans (hrecent entry hentry left hleft)
  · exact fun left hmem => summarises_window hspans hfits (hleft left hmem)
  · exact fun g hg => summarises_ephemeral hspans hfits toLowercase thresholds (order.inApp key) hg
  · exact fun g hg => summarises_temporal hspans hfits toLowercase thresholds (order.inApp key) hg

/-- The apps of two records of one window, the second of them open. -/
def editorApps : List AggregatedActivity :=
  aggregateActivitiesSince id ⟨.ofEntries, fun _ _ => .ofEntries⟩
    [⟨1, none, 0, some 1500000000, .active, some (.sample "Editor" "a" 1), 0, []⟩,
      ⟨2, none, 1500000000, none, .active, some (.sample "Editor" "b" 1), 0, []⟩]
    0 4000000000 ⟨5, 2, 10⟩

theorem editorApps_ne_nil : editorApps ≠ [] := by decide

theorem aggregation_conserves_editor :
    (editorApps.head editorApps_ne_nil).totalDurationSeconds = 3 :=
  (aggregation_conserves id _ _ 0 4000000000 _ _ (List.head_mem editorApps_ne_nil) (by decide)).1.trans
    (by decide)

end Kronical
