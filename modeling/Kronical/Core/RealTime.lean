import Kronical.Core.AppMap
import Kronical.Core.Passes
import Kronical.Core.Tiling

/-!
# Aggregated time and real time

Records that tile the session do not overlap, so what counts of them adds up to no more than the time from
`since` to `now` (`spans_le`). Every span belongs to one app, and no pass changes a total: the totals of all
apps stay below that time (`aggregated_time_le`).
-/

namespace Kronical

/-- Records that end at or after their start, and each at or before the start of the next one, which leaves
only the last of them possibly open. -/
def TiledRecords (records : List ActivityRecord) : Prop :=
  (∀ record ∈ records, ∀ ended ∈ record.endTime, record.startTime ≤ ended) ∧
    records.IsChain fun record next => ∃ ended ∈ record.endTime, ended ≤ next.startTime

namespace RecordBuilder

theorem tiled_emitted (initialState : ActivityState) (nextRecordId : Nat)
    (hints : List (EventEnvelope × HintClock)) (final : DateTime)
    (hclock : ((withNextRecordId initialState nextRecordId).sessionReadings hints final).Pairwise
      (· ≤ ·)) :
    TiledRecords ((withNextRecordId initialState nextRecordId).emitted hints final) := by
  have hended : ∀ record ∈ (withNextRecordId initialState nextRecordId).emitted hints final,
      record.endTime.isSome := by
    intro record hrecord
    obtain ⟨before, rest, -, -, current, -, ended, rfl⟩ := emitted_closed hrecord
    rfl
  have hconsistent : (withNextRecordId initialState nextRecordId).Consistent := consistent_of_none rfl
  have hinstants := emitted_instants hconsistent hints final
  obtain ⟨hordered, hchain⟩ := ordered_of_instants hended (hinstants ▸ hclock)
  refine ⟨fun record hrecord ended hend => ?_, hchain⟩
  obtain ⟨ended', hend', hle⟩ := hordered record hrecord
  rw [Option.mem_def] at hend hend'
  rw [hend] at hend'
  exact Option.some.inj hend' ▸ hle

end RecordBuilder

/-! ### One app after the other -/

theorem numSeconds_add_le {x y : Int} (hx : 0 ≤ x) (hy : 0 ≤ y) :
    numSeconds x + numSeconds y ≤ numSeconds (x + y) := by
  unfold numSeconds
  rw [Int.tdiv_eq_ediv_of_nonneg hx, Int.tdiv_eq_ediv_of_nonneg hy,
    Int.tdiv_eq_ediv_of_nonneg (Int.add_nonneg hx hy)]
  omega

theorem clip_eq_some {since now : DateTime} {record : ActivityRecord} {s : Span}
    (h : clip since now record = some s) :
    s.recStart = max record.startTime since ∧ s.recEnd = record.endTime.getD now ∧
      since < s.recEnd ∧ s.recStart ≤ s.recEnd ∧
      (s.duration : Int) = numSeconds (s.recEnd - s.recStart) := by
  unfold clip at h
  obtain ⟨focus, -, h⟩ := Option.bind_eq_some_iff.mp h
  dsimp only at h
  split_ifs at h with hend hdur
  rw [← Option.some.inj h]
  refine ⟨rfl, rfl, not_le.mp hend, ?_, Int.toNat_of_nonneg (by omega)⟩
  by_contra hlt
  exact hdur (numSeconds_nonpos (sub_nonpos.mpr (not_le.mp hlt).le))

theorem TiledRecords.pairwise {records : List ActivityRecord} (h : TiledRecords records) :
    records.Pairwise fun record later => ∃ ended ∈ record.endTime, ended ≤ later.startTime := by
  obtain ⟨hended, hchain⟩ := h
  induction records with
  | nil => exact List.Pairwise.nil
  | cons record records ih =>
    have hrest := ih (fun r hr => hended r (List.mem_cons_of_mem _ hr)) hchain.of_cons
    refine List.pairwise_cons.mpr ⟨fun later hlater => ?_, hrest⟩
    cases records with
    | nil => cases hlater
    | cons next records =>
      obtain ⟨ended, hend, hle⟩ := (List.isChain_cons_cons.mp hchain).1
      refine ⟨ended, hend, ?_⟩
      rcases List.mem_cons.mp hlater with rfl | hlater
      · exact hle
      · obtain ⟨nextEnded, hnextEnd, hnextLe⟩ := (List.pairwise_cons.mp hrest).1 later hlater
        have hnext := hended next (by simp) nextEnded hnextEnd
        exact hle.trans (hnext.trans hnextLe)

theorem spans_le_of_low {records : List ActivityRecord} {since now low : DateTime}
    (hpairs : records.Pairwise fun record later => ∃ ended ∈ record.endTime, ended ≤ later.startTime)
    (hends : ∀ record ∈ records, ∀ ended ∈ record.endTime, ended ≤ now) (hlow : low ≤ now)
    (hstarts : ∀ record ∈ records, low ≤ max record.startTime since) :
    ((((spans records since now).map (·.duration)).sum : Nat) : Int) ≤ numSeconds (now - low) := by
  induction records generalizing low with
  | nil => exact numSeconds_mono (sub_nonneg.mpr hlow)
  | cons record records ih =>
    obtain ⟨hlater, hpairs⟩ := List.pairwise_cons.mp hpairs
    have hendsRest : ∀ r ∈ records, ∀ ended ∈ r.endTime, ended ≤ now := fun r hr =>
      hends r (List.mem_cons_of_mem _ hr)
    rw [spans, List.filterMap_cons]
    cases hclip : clip since now record with
    | none => exact ih hpairs hendsRest hlow fun r hr => hstarts r (List.mem_cons_of_mem _ hr)
    | some s =>
      obtain ⟨hstart, hend, -, horder, hduration⟩ := clip_eq_some hclip
      have hfirst : low ≤ s.recStart := hstart ▸ hstarts record List.mem_cons_self
      have hstop : s.recEnd ≤ now := by
        rw [hend]
        cases hopen : record.endTime with
        | none => exact le_rfl
        | some ended => exact hends record List.mem_cons_self ended hopen
      -- The later records start at or after the end of this one.
      have hrest := ih hpairs hendsRest hstop fun r hr => by
        obtain ⟨ended, hended, hle⟩ := hlater r hr
        rw [hend, Option.mem_def.mp hended]
        exact hle.trans (le_max_left _ _)
      have hsum : (s.duration : Int) + ((((spans records since now).map (·.duration)).sum : Nat) : Int) ≤
          numSeconds (now - low) := calc
        _ ≤ numSeconds (s.recEnd - s.recStart) + numSeconds (now - s.recEnd) :=
          add_le_add hduration.le hrest
        _ ≤ numSeconds (s.recEnd - s.recStart + (now - s.recEnd)) :=
          numSeconds_add_le (sub_nonneg.mpr horder) (sub_nonneg.mpr hstop)
        _ ≤ numSeconds (now - low) := by
          refine numSeconds_mono ?_
          rw [add_comm, sub_add_sub_cancel]
          exact sub_le_sub_left hfirst now
      simpa [spans] using hsum

/-- What counts of tiled records lasts no longer than from `since` to `now`. -/
theorem spans_le {records : List ActivityRecord} {since now : DateTime} (htiled : TiledRecords records)
    (hsince : since ≤ now) (hends : ∀ record ∈ records, ∀ ended ∈ record.endTime, ended ≤ now) :
    ((((spans records since now).map (·.duration)).sum : Nat) : Int) ≤ numSeconds (now - since) :=
  spans_le_of_low htiled.pairwise hends hsince fun _ _ => le_max_right _ _

/-! ### Over all apps -/

theorem AggregatedActivity.group_total (toLowercase : String → String) (thresholds : Thresholds)
    (order : MapSite → IterOrder) (agg : AggregatedActivity) :
    (agg.group toLowercase thresholds order).totalDurationSeconds = agg.totalDurationSeconds := by
  rw [group_leaves]

theorem total_le_of_mem {records : List ActivityRecord} {since now : DateTime} {key : Nat × Nat}
    {agg : AggregatedActivity} (h : (key, agg) ∈ (appMap records since now).pairs) :
    agg.totalDurationSeconds ≤ ((appSpans records since now key).map (·.duration)).sum := by
  rw [(ofSpans_of_mem h).total]
  exact (Folds.wrapping_le _ _ _ _).trans_eq (Nat.zero_add _)

/-- For every list of records that tile the session, every `since` up to `now` with no record ending
later, all thresholds and all orders of iteration: the totals of all apps add up to no more than the whole
seconds from `since` to `now`. -/
theorem aggregated_time_le (toLowercase : String → String) (order : AggregateOrder)
    (records : List ActivityRecord) (since now : DateTime) (thresholds : Thresholds)
    (htiled : TiledRecords records) (hsince : since ≤ now)
    (hends : ∀ record ∈ records, ∀ ended ∈ record.endTime, ended ≤ now) :
    ((((aggregateActivitiesSince toLowercase order records since now thresholds).map
      (·.totalDurationSeconds)).sum : Nat) : Int) ≤ numSeconds (now - since) := by
  refine le_trans (Int.ofNat_le.mpr ?_) (spans_le htiled hsince hends)
  have hperm : ((aggregateActivitiesSince toLowercase order records since now thresholds).map
        (·.totalDurationSeconds)).Perm
      ((appMap records since now).pairs.map fun app => app.2.totalDurationSeconds) := by
    refine ((Recency.sortDesc_perm _ _).map _).trans ?_
    rw [List.map_map]
    refine List.Perm.trans (List.Perm.of_eq (List.map_congr_left fun app _ => ?_))
      (HashMap.iter_perm.map _)
    exact AggregatedActivity.group_total _ _ _ _
  rw [hperm.sum_nat]
  calc ((appMap records since now).pairs.map fun app => app.2.totalDurationSeconds).sum
      ≤ ((appMap records since now).pairs.map fun app =>
          ((appSpans records since now app.1).map (·.duration)).sum).sum :=
        List.sum_le_sum fun app happ => total_le_of_mem happ
    _ = (((appMap records since now).pairs.map (·.1)).map fun key =>
          ((appSpans records since now key).map (·.duration)).sum).sum := by rw [List.map_map]; rfl
    _ ≤ _ := HashMap.sum_filter_le (fun s : Span => appKey s.focus)
        (appMap records since now).keys_nodup _ (spans records since now)

/-- Half a second of one app, and an open record of another. -/
theorem aggregated_time_le_open :
    ((((aggregateActivitiesSince id ⟨.ofEntries, fun _ _ => .ofEntries⟩
      [⟨1, none, 0, some 1500000000, .active, some (.sample "Editor" "a" 1), 0, []⟩,
        ⟨2, none, 1500000000, none, .active, some (.sample "Mail" "b" 2), 0, []⟩]
      0 4000000000 ⟨5, 2, 10⟩).map (·.totalDurationSeconds)).sum : Nat) : Int) ≤
      numSeconds (4000000000 - 0) :=
  aggregated_time_le _ _ _ _ _ _ ⟨by decide, by decide⟩ (by decide) (by decide)

end Kronical
