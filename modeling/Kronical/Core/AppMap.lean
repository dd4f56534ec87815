import Kronical.Core.Aggregate
import Kronical.Lib.Folds

/-!
# The apps of the map

What the first loop of `aggregate_activities_since` makes of the records: for each app its total, its times
and its windows, as sums over its spans (`lookup_appMap`). The passes behind it leave the totals alone.
-/

namespace Kronical

/-- The spans of an app. -/
def appSpans (records : List ActivityRecord) (since now : DateTime) (key : Nat × Nat) : List Span :=
  (spans records since now).filter fun s => appKey s.focus = key

theorem lookup_appMap (records : List ActivityRecord) (since now : DateTime) (key : Nat × Nat) :
    (appMap records since now).lookup key =
      HashMap.gather AggregatedActivity.fresh AggregatedActivity.add
        (appSpans records since now key) :=
  HashMap.lookup_tally _ _ _ _ _

namespace AggregatedActivity

/-! ### What adding spans does -/

section Add

variable (agg : AggregatedActivity) (ss : List Span)

theorem foldl_add_total :
    (ss.foldl add agg).totalDurationSeconds =
      ss.foldl (fun t s => (t + s.duration) % 2 ^ 64) agg.totalDurationSeconds :=
  (List.foldl_hom totalDurationSeconds fun _ _ => rfl).symm

theorem foldl_add_windows :
    (ss.foldl add agg).windows = (ss.filter fun s => isTitled s.focus).foldl
      (fun m s => m.upsert s.focus.windowId (WindowActivity.fresh s) (·.add s)) agg.windows := by
  induction ss generalizing agg with
  | nil => rfl
  | cons s ss ih =>
    rw [List.foldl_cons, ih, List.filter_cons]
    by_cases htitled : isTitled s.focus = true
    · rw [if_pos htitled, List.foldl_cons, add, if_pos htitled]
    · rw [if_neg htitled, add, if_neg htitled]

theorem foldl_add_leaves :
    (ss.foldl add agg).appName = agg.appName ∧ (ss.foldl add agg).pid = agg.pid ∧
      (ss.foldl add agg).processStartTime = agg.processStartTime ∧
      (ss.foldl add agg).ephemeralGroups = agg.ephemeralGroups ∧
      (ss.foldl add agg).temporalGroups = agg.temporalGroups := by
  induction ss generalizing agg with
  | nil => exact ⟨rfl, rfl, rfl, rfl, rfl⟩
  | cons s ss ih => exact ih (agg.add s)

end Add

/-- The key of an app in the map. -/
def key (agg : AggregatedActivity) : Nat × Nat := ((agg.pid % 2 ^ 32).toNat, agg.processStartTime)

/-- The app is what its spans come to, before its windows are grouped. -/
structure OfSpans (agg : AggregatedActivity) (key : Nat × Nat) (ss : List Span) : Prop where
  key : agg.key = key
  total : agg.totalDurationSeconds = ss.foldl (fun t s => (t + s.duration) % 2 ^ 64) 0
  windows : agg.windows = HashMap.tally WindowActivity.fresh WindowActivity.add (·.focus.windowId)
    (ss.filter fun s => isTitled s.focus)
  ephemeralGroups : agg.ephemeralGroups = ∅

end AggregatedActivity

theorem ofSpans_of_mem {records : List ActivityRecord} {since now : DateTime} {key : Nat × Nat}
    {agg : AggregatedActivity} (h : (key, agg) ∈ (appMap records since now).pairs) :
    agg.OfSpans key (appSpans records since now key) := by
  rw [HashMap.mem_pairs, lookup_appMap] at h
  have hkeys : ∀ s ∈ appSpans records since now key, appKey s.focus = key := fun s hs =>
    of_decide_eq_true (List.mem_filter.mp hs).2
  cases hspans : appSpans records since now key with
  | nil =>
    rw [hspans] at h
    cases h
  | cons s ss =>
    rw [hspans] at h
    obtain ⟨-, hpid, hstart, hgroups, -⟩ := (AggregatedActivity.fresh s).foldl_add_leaves (s :: ss)
    rw [← Option.some.inj h]
    refine ⟨?_, ?_, ?_, hgroups⟩
    · rw [AggregatedActivity.key, hpid, hstart]
      exact hkeys s (hspans ▸ List.mem_cons_self)
    · exact AggregatedActivity.foldl_add_total _ _
    · exact AggregatedActivity.foldl_add_windows _ _

theorem AggregatedActivity.OfSpans.windowId {agg : AggregatedActivity} {key : Nat × Nat} {ss : List Span}
    (h : agg.OfSpans key ss) {entry : Nat × WindowActivity} (hentry : entry ∈ agg.windows.pairs) :
    entry.2.windowId = entry.1 := by
  have hlookup := HashMap.mem_pairs.mp hentry
  rw [h.windows, HashMap.lookup_tally] at hlookup
  have hids : ∀ s ∈ (ss.filter fun s => isTitled s.focus).filter (·.focus.windowId = entry.1),
      s.focus.windowId = entry.1 := fun s hs => of_decide_eq_true (List.mem_filter.mp hs).2
  have hleaves : ∀ (ss : List Span) (w : WindowActivity),
      (ss.foldl WindowActivity.add w).windowId = w.windowId := by
    intro ss
    induction ss with
    | nil => exact fun w => rfl
    | cons s ss ih => exact fun w => ih (w.add s)
  generalize (ss.filter fun s => isTitled s.focus).filter (·.focus.windowId = entry.1) = spans
    at hlookup hids
  cases spans with
  | nil => cases hlookup
  | cons s spans =>
    rw [← Option.some.inj hlookup, hleaves]
    exact hids s List.mem_cons_self

end Kronical
