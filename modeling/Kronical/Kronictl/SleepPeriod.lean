import Mathlib.Data.List.MinMax
import Mathlib.Data.List.Sort
import Kronical.Core.RealTime
import Kronical.Lib.Periods

/-!
# The detected sleep period

Loginwindow records that directly follow each other make a segment, and segments with at most an hour
between them are merged; of the merged periods, clipped to the window, one with the best score is taken. But
records that directly follow each other may be hours apart, as the daemon may have been down between them,
and nothing looks at that gap. Whatever the scores are, what is detected is covered exactly if no such gap
lies in what the loginwindow records join to a long enough period (`sleep_period_covered_iff`).
-/

namespace Kronical

def monitorSleepMergeGapSecs : Int := 60 * 60

abbrev Period := DateTime × DateTime

def ActivityRecord.isLoginwindow (record : ActivityRecord) : Bool :=
  record.focusInfo.any fun focus => eqIgnoreAsciiCase focus.appName "loginwindow"

/-- The period of a record; an open one lasts until now. -/
def ActivityRecord.period (now : DateTime) (record : ActivityRecord) : Period :=
  (record.startTime, record.endTime.getD now)

/-- `if let (Some(start), Some(end)) = (current_start.take(), current_end.take())`, and what is pushed. -/
def takeCurrent : Option DateTime × Option DateTime → List Period
  | (some start, some last) => [(start, last)]
  | _ => []

/-- The loop over the records; the state is `(current_start, current_end)`. -/
def segmentStep (now : DateTime) :
    Transducer (Option DateTime × Option DateTime) ActivityRecord Period := fun current record =>
  let recEnd := record.endTime.getD now
  if record.isLoginwindow then
    match current with
    | (none, _) => ((some record.startTime, some recEnd), [])
    | (some start, some last) => ((some start, some (if recEnd > last then recEnd else last)), [])
    | (some start, none) => ((some start, none), [])
  else ((none, none), takeCurrent current)

def findSegments (now : DateTime) (records : List ActivityRecord) : List Period :=
  ((segmentStep now).run (none, none) records).2 ++
    takeCurrent ((segmentStep now).run (none, none) records).1

/-- The loop over the sorted segments, behind the last merged one. -/
def mergeSegmentsFrom : Period → List Period → List Period
  | last, [] => [last]
  | last, (start, stop) :: segments =>
    let gap := numSeconds (start - last.2)
    if 0 ≤ gap ∧ gap ≤ monitorSleepMergeGapSecs then
      mergeSegmentsFrom (last.1, if stop > last.2 then stop else last.2) segments
    else last :: mergeSegmentsFrom (start, stop) segments

def mergeSegments : List Period → List Period
  | [] => []
  | segment :: segments => mergeSegmentsFrom segment segments

/-- The window, and the shortest sleep that counts. -/
structure SleepWindow where
  windowStart : DateTime
  windowEnd : DateTime
  minDurationSecs : Int
  deriving DecidableEq, Repr

def overlapSeconds (period : Period) (window : SleepWindow) : Int :=
  max (numSeconds (min period.2 window.windowEnd - max period.1 window.windowStart)) 0

section

variable {S : Type*} [LinearOrder S]

/-- The loop over the merged periods; `score` is the score of a clipped period, an `f64`. -/
def considerPeriod (score : Period → S) (window : SleepWindow) (best : Option (S × Period))
    (period : Period) : Option (S × Period) :=
  if overlapSeconds period window ≤ 0 then best
  else
    let clippedStart := max period.1 window.windowStart
    let clippedEnd := min period.2 window.windowEnd
    let durationSecs := numSeconds (clippedEnd - clippedStart)
    if durationSecs < window.minDurationSecs then best
    else if best.all fun best => best.1 < score (clippedStart, clippedEnd) then
      some (score (clippedStart, clippedEnd), (clippedStart, clippedEnd))
    else best

def findSleepPeriodWithWindow (score : Period → S) (records : List ActivityRecord) (now : DateTime)
    (window : SleepWindow) : Option Period :=
  let segments := findSegments now records
  if segments.isEmpty then none
  else
    let merged := mergeSegments (segments.insertionSort fun a b => a.1 ≤ b.1)
    (merged.foldl (considerPeriod score window) none).map (·.2)

end

/-! ### The claim -/

/-- Every stretch of the period in which no loginwindow record lies is at most an hour long. -/
def Covered (records : List ActivityRecord) (now : DateTime) (period : Period) : Prop :=
  ∀ a b, period.1 ≤ a → a ≤ b → b ≤ period.2 →
    (∀ record ∈ records, record.isLoginwindow = true →
      (record.period now).2 ≤ a ∨ b ≤ (record.period now).1) →
    numSeconds (b - a) ≤ monitorSleepMergeGapSecs

/-- The period, clipped to the window, is long enough. -/
def LongEnough (window : SleepWindow) (period : Period) : Prop :=
  window.minDurationSecs ≤
    numSeconds (min period.2 window.windowEnd - max period.1 window.windowStart)

instance (window : SleepWindow) : DecidablePred (LongEnough window) := fun _ =>
  inferInstanceAs (Decidable (_ ≤ _))

/-- From the first to the last of successive loginwindow records that are at most an hour apart. -/
def MergedFrom (records : List ActivityRecord) (now : DateTime) (period : Period) : Prop :=
  ∃ locked, locked <:+: records.filter (·.isLoginwindow) ∧
    locked.IsChain (fun record next =>
      numSeconds ((next.period now).1 - (record.period now).2) ≤ monitorSleepMergeGapSecs) ∧
    Periods.hull (locked.map (·.period now)) = some period

/-- A period that is returned lies in the window, is long enough and covered; and no merged period is long
enough if none is returned. -/
def ReallyAsleep (records : List ActivityRecord) (now : DateTime) (window : SleepWindow) :
    Option Period → Prop
  | some period => window.windowStart ≤ period.1 ∧ period.2 ≤ window.windowEnd ∧
      window.minDurationSecs ≤ numSeconds (period.2 - period.1) ∧ Covered records now period
  | none => ∀ period, MergedFrom records now period → ¬ LongEnough window period

/-! ### The condition -/

/-- From the first to the last of successive loginwindow records of which each next one directly follows in
the list or starts at most an hour after the one before. -/
def JoinedFrom (records : List ActivityRecord) (now : DateTime) (period : Period) : Prop :=
  ∃ locked, locked <:+: records.filter (·.isLoginwindow) ∧
    locked.IsChain (fun record next => [record, next] <:+: records ∨
      numSeconds ((next.period now).1 - (record.period now).2) ≤ monitorSleepMergeGapSecs) ∧
    Periods.hull (locked.map (·.period now)) = some period

/-- The part of a period in the window. -/
def SleepWindow.clip (window : SleepWindow) (period : Period) : Period :=
  (max period.1 window.windowStart, min period.2 window.windowEnd)

/-- No two loginwindow records that directly follow each other leave more than an hour of the period
between them. -/
def Intact (records : List ActivityRecord) (now : DateTime) (period : Period) : Prop :=
  records.IsChain fun record next => record.isLoginwindow = true → next.isLoginwindow = true →
    numSeconds (min (next.period now).1 period.2 - max (record.period now).2 period.1) ≤
      monitorSleepMergeGapSecs

instance (records : List ActivityRecord) (now : DateTime) : DecidablePred (Intact records now) :=
  fun _ => inferInstanceAs (Decidable (List.IsChain _ _))

/-! ### Blocks -/

/-- The segments: from the start to the end of loginwindow records that directly follow each other. -/
def lockSegments (records : List ActivityRecord) (now : DateTime) : List Period :=
  ((records.splitBy fun record next => record.isLoginwindow == next.isLoginwindow).filter
    (·.all (·.isLoginwindow))).filterMap fun run => Periods.hull (run.map (·.period now))

/-- At most an hour passes between them. -/
def nearInTime (last start : DateTime) : Bool :=
  0 ≤ numSeconds (start - last) ∧ numSeconds (start - last) ≤ monitorSleepMergeGapSecs

/-- The blocks: from the start to the end of segments that follow each other within an hour. -/
def lockBlocks (records : List ActivityRecord) (now : DateTime) : List Period :=
  (Periods.groups nearInTime (lockSegments records now)).filterMap Periods.hull

/-- The blocks that are long enough, clipped to the window. -/
def sleepCandidates (records : List ActivityRecord) (now : DateTime) (window : SleepWindow) : List Period :=
  ((lockBlocks records now).filter (LongEnough window)).map window.clip

/-! ### Segments and merged periods -/

variable {records : List ActivityRecord} {now : DateTime} {window : SleepWindow}

theorem TiledRecords.ordered (htiled : TiledRecords records)
    (hnow : ∀ record ∈ records, record.startTime ≤ now) :
    Periods.Ordered (records.map (·.period now)) where
  le := by
    intro period hperiod
    obtain ⟨record, hrecord, rfl⟩ := List.mem_map.mp hperiod
    unfold ActivityRecord.period
    cases hend : record.endTime with
    | none => exact hnow record hrecord
    | some ended => exact htiled.1 record hrecord ended hend
  apart := by
    refine List.pairwise_map.mpr (htiled.pairwise.imp ?_)
    rintro record later ⟨ended, hended, hle⟩
    unfold ActivityRecord.period
    rw [Option.mem_def.mp hended]
    exact hle

/-- What a run of records pushes when it ends. -/
def closeRun (now : DateTime) (run : List ActivityRecord) : List Period :=
  if run.all (·.isLoginwindow) then (Periods.hull (run.map (·.period now))).toList else []

/-- The state stands for a run of loginwindow records, or of others. -/
def HoldsRun (now : DateTime) (current : Option DateTime × Option DateTime) (run : List ActivityRecord) :
    Prop :=
  (∃ period, (∀ record ∈ run, record.isLoginwindow = true) ∧
      Periods.hull (run.map (·.period now)) = some period ∧
      current = (some period.1, some period.2)) ∨
    (∃ record ∈ run, record.isLoginwindow = false) ∧
      (∀ record ∈ run, record.isLoginwindow = false) ∧ current = (none, none)

theorem holdsRun_single (record : ActivityRecord) :
    HoldsRun now (segmentStep now (none, none) record).1 [record] := by
  unfold segmentStep
  dsimp only
  cases hlock : record.isLoginwindow with
  | true =>
    rw [if_pos rfl]
    exact Or.inl ⟨record.period now, by simpa using hlock, rfl, rfl⟩
  | false =>
    rw [if_neg Bool.false_ne_true]
    exact Or.inr ⟨by simpa using hlock, by simpa using hlock, rfl⟩

theorem HoldsRun.takeCurrent {current : Option DateTime × Option DateTime} {run : List ActivityRecord}
    (h : HoldsRun now current run) : Kronical.takeCurrent current = closeRun now run := by
  unfold closeRun
  rcases h with ⟨period, hlock, hhull, rfl⟩ | ⟨⟨record, hrecord, hlock⟩, -, rfl⟩
  · rw [if_pos (List.all_eq_true.mpr hlock), hhull]
    rfl
  · rw [if_neg]
    · rfl
    · intro hall
      rw [List.all_eq_true.mp hall record hrecord] at hlock
      cases hlock

theorem collects_segments (now : DateTime) :
    Transducer.Collects (segmentStep now)
      (fun record next => record.isLoginwindow == next.isLoginwindow) (closeRun now)
      (HoldsRun now) where
  extend {current front last record} h hjoined := by
    have hsame : last.isLoginwindow = record.isLoginwindow := beq_iff_eq.mp hjoined
    rcases h with ⟨period, hlock, hhull, rfl⟩ | ⟨hother, hothers, rfl⟩
    · have hrecord : record.isLoginwindow = true := hsame ▸ hlock last (by simp)
      have hmax : (if record.endTime.getD now > period.2 then record.endTime.getD now else period.2) =
          max period.2 (record.endTime.getD now) := (max_def_lt _ _).symm
      simp only [segmentStep, hrecord, if_true, hmax]
      refine ⟨trivial, Or.inl ⟨(period.1, max period.2 (record.endTime.getD now)), ?_, ?_, rfl⟩⟩
      · exact List.forall_mem_append.mpr ⟨hlock, List.forall_mem_singleton.mpr hrecord⟩
      · rw [List.map_append]
        exact Periods.hull_concat hhull _
    · have hrecord : record.isLoginwindow = false := hsame ▸ hothers last (by simp)
      simp only [segmentStep, hrecord, Bool.false_eq_true, if_false]
      refine ⟨rfl, Or.inr ⟨⟨record, by simp, hrecord⟩, ?_, rfl⟩⟩
      exact List.forall_mem_append.mpr ⟨hothers, List.forall_mem_singleton.mpr hrecord⟩
  restart {current front last record} h hapart := by
    have hpushed := h.takeCurrent
    have hne : last.isLoginwindow ≠ record.isLoginwindow := fun hsame => by simp [hsame] at hapart
    rcases h with ⟨period, hlock, hhull, rfl⟩ | ⟨hother, hothers, rfl⟩
    · have hrecord : record.isLoginwindow = false := by
        rw [hlock last (by simp)] at hne
        exact Bool.eq_false_iff.mpr hne.symm
      refine ⟨?_, ?_⟩
      · rw [← hpushed]
        simp [segmentStep, hrecord]
      · have hsingle : HoldsRun now (segmentStep now (none, none) record).1 [record] :=
          holdsRun_single record
        simpa [segmentStep, hrecord] using hsingle
    · have hrecord : record.isLoginwindow = true := by
        rw [hothers last (by simp)] at hne
        exact (Bool.not_eq_false _).mp hne.symm
      refine ⟨?_, holdsRun_single record⟩
      rw [← hpushed]
      simp [segmentStep, hrecord, Kronical.takeCurrent]

theorem findSegments_eq (now : DateTime) (records : List ActivityRecord) :
    findSegments now records = lockSegments records now := by
  have hclose : ∀ runs : List (List ActivityRecord), runs.flatMap (closeRun now) =
      (runs.filter (·.all (·.isLoginwindow))).filterMap fun run =>
        Periods.hull (run.map (·.period now)) := by
    intro runs
    induction runs with
    | nil => rfl
    | cons run runs ih =>
      rw [List.flatMap_cons, ih, closeRun]
      cases hall : run.all (·.isLoginwindow) with
      | true =>
        rw [List.filter_cons, hall, if_pos rfl, if_pos rfl, List.filterMap_cons]
        cases Periods.hull (run.map (·.period now)) <;> rfl
      | false =>
        rw [List.filter_cons, hall, if_neg Bool.false_ne_true, if_neg Bool.false_ne_true]
        rfl
  unfold findSegments lockSegments
  rw [← hclose]
  cases records with
  | nil => rfl
  | cons record records =>
    obtain ⟨open_, hopen, hruns⟩ := (collects_segments now).run_cons (holdsRun_single record) records
    have hfirst : (segmentStep now (none, none) record).2 = [] := by
      unfold segmentStep
      dsimp only
      split_ifs <;> rfl
    rw [hruns, Transducer.run_cons_fst, Transducer.run_cons_snd, hopen.takeCurrent, hfirst,
      List.nil_append]

theorem mergeSegments_eq (segments : List Period) :
    mergeSegments segments = Periods.merge nearInTime segments := by
  have hfrom : ∀ (segments : List Period) last,
      mergeSegmentsFrom last segments = Periods.mergeFrom nearInTime last segments := by
    intro segments
    induction segments with
    | nil => exact fun _ => rfl
    | cons segment segments ih =>
      intro last
      have hmax : (if segment.2 > last.2 then segment.2 else last.2) = max last.2 segment.2 :=
        (max_def_lt _ _).symm
      simp only [mergeSegmentsFrom, Periods.mergeFrom, hmax, ih, nearInTime, decide_eq_true_eq]
  cases segments with
  | nil => rfl
  | cons segment segments => exact hfrom segments segment

theorem sublist_lockRuns (records : List ActivityRecord) :
    ((records.splitBy fun record next => record.isLoginwindow == next.isLoginwindow).filter
      (·.all (·.isLoginwindow))).flatten.Sublist records := by
  have hsub := (List.filter_sublist (p := fun run => run.all (·.isLoginwindow))
    (l := records.splitBy fun record next => record.isLoginwindow == next.isLoginwindow)).flatten
  rwa [List.flatten_splitBy] at hsub

theorem ordered_lockSegments (h : Periods.Ordered (records.map (·.period now))) :
    Periods.Ordered (lockSegments records now) := by
  have hruns : Periods.Ordered ((((records.splitBy fun record next =>
      record.isLoginwindow == next.isLoginwindow).filter (·.all (·.isLoginwindow))).map
        (List.map (·.period now))).flatten) := by
    rw [← List.map_flatten]
    exact h.sublist ((sublist_lockRuns records).map _)
  have hhulls := hruns.filterMap_hull
  rw [List.filterMap_map] at hhulls
  exact hhulls

theorem sort_eq {segments : List Period} (h : Periods.Ordered segments) :
    segments.insertionSort (fun a b => a.1 ≤ b.1) = segments := by
  refine List.Pairwise.insertionSort_eq (h.apart.imp_of_mem ?_)
  intro p q hp _ hpq
  exact (h.le p hp).trans hpq

section

variable {S : Type*} [LinearOrder S] {score : Period → S}

theorem foldl_considerPeriod (hmin : 1 ≤ window.minDurationSecs) (merged : List Period) :
    merged.foldl (considerPeriod score window) none =
      (((merged.filter (LongEnough window)).map window.clip).argmax score).map
          fun period => (score period, period) := by
  induction merged using List.reverseRecOn with
  | nil => rfl
  | append_singleton merged period ih =>
    rw [List.foldl_append, List.foldl_cons, List.foldl_nil, ih, List.filter_append, List.filter_singleton]
    unfold considerPeriod
    by_cases hlong : LongEnough window period
    · have hoverlap : ¬ overlapSeconds period window ≤ 0 := by
        have hle : window.minDurationSecs ≤ overlapSeconds period window := hlong.trans (le_max_left _ _)
        omega
      rw [if_neg hoverlap]
      dsimp only
      rw [if_neg (not_lt.mpr hlong), decide_eq_true hlong, cond_true, List.map_append, List.map_singleton,
        List.argmax_concat]
      cases ((merged.filter (LongEnough window)).map window.clip).argmax score with
      | none => rfl
      | some best =>
        dsimp only [Option.map_some, Option.all_some]
        by_cases hbetter : score best < score (window.clip period)
        · rw [if_pos hbetter]
          exact if_pos (decide_eq_true hbetter)
        · rw [if_neg hbetter]
          exact if_neg (mt of_decide_eq_true hbetter)
    · rw [decide_eq_false hlong, cond_false, List.append_nil]
      split_ifs with hoverlap
      · rfl
      · exact if_pos (not_le.mp hlong)

theorem findSleepPeriodWithWindow_eq (htiled : TiledRecords records)
    (hnow : ∀ record ∈ records, record.startTime ≤ now) (hmin : 1 ≤ window.minDurationSecs) :
    findSleepPeriodWithWindow score records now window =
      (sleepCandidates records now window).argmax score := by
  have hordered := ordered_lockSegments (htiled.ordered hnow)
  unfold findSleepPeriodWithWindow
  dsimp only
  rw [findSegments_eq, sort_eq hordered, mergeSegments_eq, hordered.merge_eq, foldl_considerPeriod hmin]
  split_ifs with hempty
  · unfold sleepCandidates lockBlocks
    rw [List.isEmpty_iff.mp hempty]
    rfl
  · rw [Option.map_map]
    exact Option.map_id'

end

/-! ### Coverage -/

theorem block_of_candidate {period : Period} (h : period ∈ sleepCandidates records now window) :
    ∃ block ∈ lockBlocks records now, LongEnough window block ∧ window.clip block = period := by
  obtain ⟨block, hmem, rfl⟩ := List.mem_map.mp h
  obtain ⟨hblock, hlong⟩ := List.mem_filter.mp hmem
  exact ⟨block, hblock, of_decide_eq_true hlong, rfl⟩

theorem exists_pair_of_map {α β : Type*} {f : α → β} {l : List α} {p q : β}
    (h : [p, q] <:+: l.map f) : ∃ x y, [x, y] <:+: l ∧ f x = p ∧ f y = q := by
  obtain ⟨front, back, heq⟩ := h
  rw [List.append_assoc, eq_comm, List.map_eq_append_iff] at heq
  obtain ⟨front', rest, rfl, -, hrest⟩ := heq
  rw [List.map_eq_append_iff] at hrest
  obtain ⟨pair, back', rfl, hpair, -⟩ := hrest
  obtain ⟨x, tail, rfl, hx, htail⟩ := List.map_eq_cons_iff.mp hpair
  obtain ⟨y, tail, rfl, hy, htail⟩ := List.map_eq_cons_iff.mp htail
  obtain rfl := List.map_eq_nil_iff.mp htail
  exact ⟨x, y, ⟨front', back', by simp⟩, hx, hy⟩

theorem exists_gap (h : Periods.Ordered (records.map (·.period now))) {block : Period}
    (hblock : block ∈ lockBlocks records now) {a b : DateTime} (ha : block.1 ≤ a) (hab : a < b)
    (hb : b ≤ block.2) (hfree : ∀ record ∈ records, record.isLoginwindow = true →
      (record.period now).2 ≤ a ∨ b ≤ (record.period now).1) :
    numSeconds (b - a) ≤ monitorSleepMergeGapSecs ∨
      ∃ record next, [record, next] <:+: records ∧ record.isLoginwindow = true ∧
        next.isLoginwindow = true ∧ (record.period now).2 ≤ a ∧ b ≤ (next.period now).1 := by
  have hsegments := ordered_lockSegments h
  obtain ⟨group, hgroup, hhull⟩ := List.mem_filterMap.mp hblock
  have hmaximal := Runs.maximal_splitBy
    (fun p q : Period => (Iff.rfl : nearInTime p.2 q.1 = true ↔ _)) (lockSegments records now)
  have hgroupIn : group <:+: lockSegments records now :=
    hmaximal.flatten ▸ List.infix_of_mem_flatten hgroup
  have hordered := hsegments.sublist hgroupIn.sublist
  by_cases hall : ∀ segment ∈ group, segment.2 ≤ a ∨ b ≤ segment.1
  · -- Between two segments.
    obtain ⟨p, q, hpair, hp, hq⟩ := hordered.exists_link hhull ha hab hb hall
    have hnear := List.isChain_pair.mp ( List.IsChain.infix (hmaximal.chain group hgroup) hpair)
    exact Or.inl (le_trans (numSeconds_mono (sub_le_sub hq hp)) (of_decide_eq_true hnear).2)
  · -- Within a segment, that is between two of its records.
    push Not at hall
    obtain ⟨segment, hsegment, hlow, hhigh⟩ := hall
    obtain ⟨run, hrun, hrunHull⟩ := List.mem_filterMap.mp (hgroupIn.subset hsegment)
    obtain ⟨hrun, hlock⟩ := List.mem_filter.mp hrun
    have hrunInfix : run <:+: records := by
      have hmem := List.infix_of_mem_flatten hrun
      rwa [List.flatten_splitBy] at hmem
    have hlock : ∀ record ∈ run, record.isLoginwindow = true := List.all_eq_true.mp hlock
    have hrunOrdered := h.sublist (hrunInfix.sublist.map (·.period now))
    have hrunFree : ∀ p ∈ run.map (·.period now), p.2 ≤ a ∨ b ≤ p.1 := by
      intro p hp
      obtain ⟨record, hrecord, rfl⟩ := List.mem_map.mp hp
      exact hfree record (hrunInfix.subset hrecord) (hlock record hrecord)
    obtain ⟨hfrom, hto⟩ := hrunOrdered.within hrunHull hlow hhigh hrunFree
    obtain ⟨p, q, hpair, hp, hq⟩ := hrunOrdered.exists_link hrunHull hfrom hab hto hrunFree
    obtain ⟨record, next, hrecords, rfl, rfl⟩ := exists_pair_of_map hpair
    exact Or.inr ⟨record, next, hrecords.trans hrunInfix, hlock record (hrecords.subset (by simp)),
      hlock next (hrecords.subset (by simp)), hp, hq⟩

theorem covered_of_intact (h : Periods.Ordered (records.map (·.period now))) {block period : Period}
    (hblock : block ∈ lockBlocks records now) (hlow : block.1 ≤ period.1) (hhigh : period.2 ≤ block.2)
    (hintact : Intact records now period) : Covered records now period := by
  intro a b ha hab hb hfree
  rcases eq_or_lt_of_le hab with rfl | hab
  · rw [sub_self]
    decide
  rcases exists_gap h hblock (hlow.trans ha) hab (hb.trans hhigh) hfree with
    hgap | ⟨record, next, hpair, hrecord, hnext, hp, hq⟩
  · exact hgap
  · have hjoined := List.isChain_pair.mp ( List.IsChain.infix hintact hpair)
    refine le_trans (numSeconds_mono ?_) (hjoined hrecord hnext)
    exact sub_le_sub (le_min hq hb) (max_le hp ha)

theorem intact_of_covered (h : Periods.Ordered (records.map (·.period now))) {period : Period}
    (hcovered : Covered records now period) : Intact records now period := by
  refine List.isChain_iff_forall_rel_of_append_cons_cons.mpr ?_
  rintro record next front back rfl hrecord hnext
  by_contra hgap
  have hlt : max (record.period now).2 period.1 < min (next.period now).1 period.2 := by
    by_contra hle
    exact hgap ((numSeconds_nonpos (sub_nonpos.mpr (not_lt.mp hle))).trans (by decide))
  refine hgap (hcovered _ _ (le_max_right _ _) hlt.le (min_le_right _ _) ?_)
  intro other hother _
  -- Every other record has ended before the first of the two or starts after the second.
  have hfirst := h.le (record.period now) (List.mem_map_of_mem (by simp))
  have hsecond := h.le (next.period now) (List.mem_map_of_mem (by simp))
  obtain ⟨-, hrest, hleft⟩ := List.pairwise_append.mp (List.pairwise_map.mp h.apart)
  obtain ⟨hright, -⟩ := List.pairwise_cons.mp (List.pairwise_cons.mp hrest).2
  have hother : other ∈ front ∨ other = record ∨ other = next ∨ other ∈ back := by
    simpa [or_assoc] using hother
  rcases hother with hother | rfl | rfl | hother
  · exact Or.inl ((hleft other hother record (by simp)).trans (hfirst.trans (le_max_left _ _)))
  · exact Or.inl (le_max_left _ _)
  · exact Or.inr (min_le_left _ _)
  · exact Or.inr ((min_le_left _ _).trans (hsecond.trans (hright other hother)))

theorem Intact.mono {period part : Period} (h : Intact records now period) (hlow : period.1 ≤ part.1)
    (hhigh : part.2 ≤ period.2) : Intact records now part := by
  refine List.IsChain.imp (fun record next hgap hrecord hnext => ?_) h
  refine le_trans (numSeconds_mono ?_) (hgap hrecord hnext)
  exact sub_le_sub (min_le_min_left _ hhigh) (max_le_max_left _ hlow)

/-! ### What is joined lies in a block -/

theorem nearInTime_self (a : DateTime) : nearInTime a a = true := by
  rw [nearInTime, sub_self]
  decide

theorem nearInTime_monotone : Periods.Monotone nearInTime := by
  intro a a' b b' ha hle hb hnear
  have hgap : numSeconds (b' - a') ≤ numSeconds (b - a) := numSeconds_mono (sub_le_sub hb ha)
  have hnonneg : 0 ≤ numSeconds (b' - a') := numSeconds_mono (sub_nonneg.mpr hle)
  exact decide_eq_true ⟨hnonneg, hgap.trans (of_decide_eq_true hnear).2⟩

theorem maximal_lockRuns (records : List ActivityRecord) :
    Runs.Maximal (fun record next => record.isLoginwindow = next.isLoginwindow) records
      (records.splitBy fun record next => record.isLoginwindow == next.isLoginwindow) :=
  Runs.maximal_splitBy (fun _ _ => beq_iff_eq) records

theorem all_isLoginwindow {run : List ActivityRecord} {record : ActivityRecord}
    (hchain : run.IsChain fun record next => record.isLoginwindow = next.isLoginwindow)
    (hmem : record ∈ run) (hlock : record.isLoginwindow = true) : run.all (·.isLoginwindow) = true := by
  have hpair := List.isChain_iff_pairwise.mp hchain
  refine List.all_eq_true.mpr fun other hother => ?_
  rw [← hlock]
  refine List.Pairwise.forall_of_forall_of_flip
    (R := fun record next => record.isLoginwindow = next.isLoginwindow) ?_ hpair ?_ hother hmem
  · exact fun _ _ => rfl
  · exact hpair.imp Eq.symm

theorem exists_block_of_run (h : Periods.Ordered (records.map (·.period now)))
    {run : List ActivityRecord}
    (hrun : run ∈ records.splitBy fun record next => record.isLoginwindow == next.isLoginwindow)
    (hall : run.all (·.isLoginwindow) = true) :
    ∃ block ∈ lockBlocks records now, ∀ record ∈ run, block.1 ≤ (record.period now).1 ∧
      (record.period now).2 ≤ block.2 := by
  have hrun : run ∈ (records.splitBy fun record next => record.isLoginwindow == next.isLoginwindow).filter
      (·.all (·.isLoginwindow)) :=
    List.mem_filter.mpr ⟨hrun, hall⟩
  have hsub := (List.sublist_flatten_of_mem hrun).trans (sublist_lockRuns records)
  have hne := (maximal_lockRuns records).nonempty run (List.mem_of_mem_filter hrun)
  obtain ⟨segment, hsegment⟩ :=
    Periods.hull_isSome (show run.map (·.period now) ≠ [] from mt List.map_eq_nil_iff.mp hne)
  have hsegmentMem : segment ∈ lockSegments records now := List.mem_filterMap.mpr ⟨run, hrun, hsegment⟩
  have hsegments := ordered_lockSegments h
  rw [← List.flatten_splitBy (fun p q => nearInTime p.2 q.1) (lockSegments records now)] at hsegmentMem
  obtain ⟨group, hgroup, hmem⟩ := List.mem_flatten.mp hsegmentMem
  obtain ⟨block, hblock⟩ := Periods.hull_isSome (List.ne_nil_of_mem hmem)
  have hgroupSub := List.sublist_flatten_of_mem hgroup
  rw [List.flatten_splitBy] at hgroupSub
  obtain ⟨hlow, hhigh⟩ := (hsegments.sublist hgroupSub).mem_hull hblock hmem
  refine ⟨block, List.mem_filterMap.mpr ⟨group, hgroup, hblock⟩, fun record hrecord => ?_⟩
  obtain ⟨hrunLow, hrunHigh⟩ := (h.sublist (hsub.map _)).mem_hull hsegment (List.mem_map_of_mem hrecord)
  exact ⟨hlow.trans hrunLow, hrunHigh.trans hhigh⟩

theorem JoinedFrom.exists_block (h : Periods.Ordered (records.map (·.period now))) {period : Period}
    (hjoined : JoinedFrom records now period) :
    ∃ block ∈ lockBlocks records now, block.1 ≤ period.1 ∧ period.2 ≤ block.2 := by
  obtain ⟨locked, hlocked, hchain, hhull⟩ := hjoined
  have hlock : ∀ record ∈ locked, record ∈ records ∧ record.isLoginwindow = true := fun record hrecord =>
    List.mem_filter.mp (hlocked.subset hrecord)
  have hordered := h.sublist ((hlocked.sublist.trans List.filter_sublist).map (·.period now))
  obtain ⟨hblocks, hfar⟩ := (ordered_lockSegments h).merged nearInTime
  refine Periods.Ordered.exists_block nearInTime_monotone nearInTime_self hblocks hfar hordered ?_ ?_ hhull
  · intro p hp
    obtain ⟨record, hrecord, rfl⟩ := List.mem_map.mp hp
    obtain ⟨hmem, hlock⟩ := hlock record hrecord
    rw [← (maximal_lockRuns records).flatten] at hmem
    obtain ⟨run, hrun, hmem⟩ := List.mem_flatten.mp hmem
    obtain ⟨block, hblock, hin⟩ := exists_block_of_run h hrun
      (all_isLoginwindow ((maximal_lockRuns records).chain run hrun) hmem hlock)
    exact ⟨block, hblock, hin record hmem⟩
  · refine (List.isChain_map (·.period now)).mpr (hchain.imp_of_mem_imp ?_)
    rintro record next hrecord hnext (hpair | hgap)
    · -- They are of one run.
      have hrecordLock := (hlock record hrecord).2
      obtain ⟨run, hrun, hmem, hmem'⟩ := (maximal_lockRuns records).exists_run hpair
        (hrecordLock.trans (hlock next hnext).2.symm)
      obtain ⟨block, hblock, hin⟩ := exists_block_of_run h hrun
        (all_isLoginwindow ((maximal_lockRuns records).chain run hrun) hmem hrecordLock)
      exact Or.inr ⟨block, hblock, (hin record hmem).1, (hin next hmem').2⟩
    · exact Or.inl fun hle => decide_eq_true ⟨numSeconds_mono (sub_nonneg.mpr hle), hgap⟩

theorem MergedFrom.joinedFrom {period : Period} (h : MergedFrom records now period) :
    JoinedFrom records now period := by
  obtain ⟨locked, hlocked, hchain, hhull⟩ := h
  exact ⟨locked, hlocked, hchain.imp fun _ _ => Or.inr, hhull⟩

/-! ### A block is joined -/

theorem flatten_lockRuns (records : List ActivityRecord) :
    ((records.splitBy fun record next => record.isLoginwindow == next.isLoginwindow).filter
      (·.all (·.isLoginwindow))).flatten = records.filter (·.isLoginwindow) := by
  have hmaximal := maximal_lockRuns records
  conv_rhs => rw [← hmaximal.flatten]
  have hchain := hmaximal.chain
  generalize records.splitBy (fun record next => record.isLoginwindow == next.isLoginwindow) = runs
    at hchain ⊢
  induction runs with
  | nil => rfl
  | cons run runs ih =>
    obtain ⟨hrun, hchain⟩ := List.forall_mem_cons.mp hchain
    rw [List.flatten_cons, List.filter_append, ← ih hchain, List.filter_cons]
    split_ifs with hall
    · rw [List.flatten_cons, List.filter_eq_self.mpr (List.all_eq_true.mp hall)]
    · have hnone : run.filter (·.isLoginwindow) = [] := List.filter_eq_nil_iff.mpr fun record hmem hlock =>
        hall (all_isLoginwindow hrun hmem hlock)
      rw [hnone, List.nil_append]

theorem isChain_pairs {α : Type*} (l : List α) : l.IsChain fun x y => [x, y] <:+: l := by
  refine List.isChain_iff_forall_rel_of_append_cons_cons.mpr ?_
  rintro x y front back rfl
  exact ⟨front, back, by simp⟩

theorem joinedFrom_of_block (h : Periods.Ordered (records.map (·.period now))) {block : Period}
    (hblock : block ∈ lockBlocks records now) : JoinedFrom records now block := by
  obtain ⟨group, hgroup, hhull⟩ := List.mem_filterMap.mp hblock
  have hmaximal := Runs.maximal_splitBy
    (fun p q : Period => (Iff.rfl : nearInTime p.2 q.1 = true ↔ _)) (lockSegments records now)
  have hgroupIn : group <:+: lockSegments records now :=
    hmaximal.flatten ▸ List.infix_of_mem_flatten hgroup
  -- The runs behind the segments of the block.
  obtain ⟨runs, hruns, hsegments⟩ : ∃ runs, runs <:+: (records.splitBy fun record next =>
      record.isLoginwindow == next.isLoginwindow).filter (·.all (·.isLoginwindow)) ∧
        runs.filterMap (fun run => Periods.hull (run.map (·.period now))) = group := by
    obtain ⟨front, back, heq⟩ := hgroupIn
    obtain ⟨left, right, hsplit, hleft, -⟩ := List.filterMap_eq_append_iff.mp heq.symm
    obtain ⟨front', runs, rfl, -, hruns⟩ := List.filterMap_eq_append_iff.mp hleft
    exact ⟨runs, ⟨front', right, hsplit.symm⟩, hruns⟩
  have hne : ∀ run ∈ runs, run ≠ [] := fun run hrun =>
    (maximal_lockRuns records).nonempty run (List.mem_of_mem_filter (hruns.subset hrun))
  have hneMap : ∀ run ∈ runs.map (List.map (·.period now)), run ≠ [] := by
    intro run hrun
    obtain ⟨run, hmem, rfl⟩ := List.mem_map.mp hrun
    exact mt List.map_eq_nil_iff.mp (hne run hmem)
  have hflatten : runs.flatten <:+: records.filter (·.isLoginwindow) :=
    flatten_lockRuns records ▸ hruns.flatten
  have hordered : Periods.Ordered (runs.map (List.map (·.period now))).flatten := by
    rw [← List.map_flatten]
    exact h.sublist ((hflatten.sublist.trans List.filter_sublist).map _)
  have hgroupEq : (runs.map (List.map (·.period now))).filterMap Periods.hull = group := by
    rw [List.filterMap_map, ← hsegments]
    rfl
  have hnil : [] ∉ runs := fun hmem => hne [] hmem rfl
  refine ⟨runs.flatten, hflatten, (List.isChain_flatten hnil).mpr ⟨fun run hrun => ?_, ?_⟩, ?_⟩
  · have hrunIn : run <:+: records := by
      have hmem := List.infix_of_mem_flatten (List.mem_of_mem_filter (hruns.subset hrun))
      rwa [List.flatten_splitBy] at hmem
    exact (isChain_pairs run).imp fun _ _ hpair => Or.inl (hpair.trans hrunIn)
  · have hnear := hordered.isChain_of_hulls hneMap (R := fun last start => nearInTime last start = true)
      (hgroupEq ▸ hmaximal.chain group hgroup)
    refine ((List.isChain_map _).mp hnear).imp fun run run' hjoined record hrecord next hnext => ?_
    have hgap := hjoined (record.period now) (by rw [List.getLast?_map, Option.mem_def.mp hrecord]; rfl)
      (next.period now) (by rw [List.head?_map, Option.mem_def.mp hnext]; rfl)
    exact Or.inr (of_decide_eq_true hgap).2
  · rw [List.map_flatten, Periods.hull_flatten hneMap, hgroupEq, hhull]

theorem LongEnough.mono {part period : Period} (h : LongEnough window part) (hlow : period.1 ≤ part.1)
    (hhigh : part.2 ≤ period.2) : LongEnough window period :=
  h.trans (numSeconds_mono (sub_le_sub (min_le_min_right _ hhigh) (max_le_max_right _ hlow)))

theorem mem_sleepCandidates {block : Period} (hblock : block ∈ lockBlocks records now)
    (hlong : LongEnough window block) : window.clip block ∈ sleepCandidates records now window :=
  List.mem_map_of_mem (List.mem_filter.mpr ⟨hblock, decide_eq_true hlong⟩)

theorem argmax_favoured {α : Type*} [DecidableEq α] {l : List α} {favoured : α} (h : favoured ∈ l) :
    l.argmax (fun other => if other = favoured then 1 else 0) = some favoured := by
  obtain ⟨best, hbest⟩ := Option.ne_none_iff_exists'.mp
    (mt List.argmax_eq_none.mp (List.ne_nil_of_mem h) :
      l.argmax (fun other => if other = favoured then 1 else 0) ≠ none)
  have hle := List.le_of_mem_argmax h (Option.mem_def.mpr hbest)
  rw [if_pos rfl] at hle
  split_ifs at hle with heq
  · rw [hbest, heq]
  · exact absurd hle (by decide)

theorem not_longEnough (h : Periods.Ordered (records.map (·.period now)))
    (hnone : sleepCandidates records now window = []) {period : Period}
    (hmerged : MergedFrom records now period) : ¬ LongEnough window period := by
  intro hlong
  obtain ⟨block, hblock, hlow, hhigh⟩ := hmerged.joinedFrom.exists_block h
  have hlonger := hlong.mono hlow hhigh
  have hfilter := List.map_eq_nil_iff.mp hnone
  exact List.filter_eq_nil_iff.mp hfilter block hblock (decide_eq_true hlonger)

/-- Whatever the scores are, what is detected is covered exactly if no two loginwindow records that directly
follow each other leave more than an hour between them in what the loginwindow records join to a long enough
period. -/
theorem sleep_period_covered_iff (records : List ActivityRecord) (now : DateTime) (window : SleepWindow)
    (htiled : TiledRecords records) (hnow : ∀ record ∈ records, record.startTime ≤ now)
    (hmin : 1 ≤ window.minDurationSecs) :
    (∀ (S : Type) (_ : LinearOrder S) (score : Period → S),
      ReallyAsleep records now window (findSleepPeriodWithWindow score records now window)) ↔
      ∀ period, JoinedFrom records now period → LongEnough window period →
        Intact records now (window.clip period) := by
  have hordered := htiled.ordered hnow
  constructor
  · intro hasleep period hjoined hlong
    obtain ⟨block, hblock, hlow, hhigh⟩ := hjoined.exists_block hordered
    have hcandidate := mem_sleepCandidates hblock (hlong.mono hlow hhigh)
    have hfound := hasleep Nat inferInstance fun other => if other = window.clip block then 1 else 0
    rw [findSleepPeriodWithWindow_eq htiled hnow hmin, argmax_favoured hcandidate] at hfound
    exact (intact_of_covered hordered hfound.2.2.2).mono (max_le_max_right _ hlow)
      (min_le_min_right _ hhigh)
  · intro hintact S _ score
    rw [findSleepPeriodWithWindow_eq htiled hnow hmin]
    cases hbest : (sleepCandidates records now window).argmax score with
    | none =>
      exact fun period hmerged => not_longEnough hordered (List.argmax_eq_none.mp hbest) hmerged
    | some period =>
      obtain ⟨block, hblock, hlong, rfl⟩ := block_of_candidate (List.argmax_mem hbest)
      refine ⟨le_max_right _ _, min_le_right _ _, hlong, ?_⟩
      exact covered_of_intact hordered hblock (le_max_left _ _) (min_le_left _ _)
        (hintact block (joinedFrom_of_block hordered hblock) hlong)

/-- A night on the lock screen from one hour to seven, with half an hour of another app in between. -/
theorem sleep_period_covered_iff_night :
    ReallyAsleep
      [⟨1, none, 3600000000000, some 14400000000000, .locked, some (.sample "loginwindow" "" 1), 0, []⟩,
        ⟨2, none, 14400000000000, some 16200000000000, .active, some (.sample "Editor" "" 2), 0, []⟩,
        ⟨3, none, 16200000000000, some 25200000000000, .locked, some (.sample "loginwindow" "" 1), 0, []⟩]
      86400000000000 ⟨0, 86400000000000, 14400⟩ (some (3600000000000, 25200000000000)) := by
  refine (sleep_period_covered_iff
    [⟨1, none, 3600000000000, some 14400000000000, .locked, some (.sample "loginwindow" "" 1), 0, []⟩,
      ⟨2, none, 14400000000000, some 16200000000000, .active, some (.sample "Editor" "" 2), 0, []⟩,
      ⟨3, none, 16200000000000, some 25200000000000, .locked, some (.sample "loginwindow" "" 1), 0, []⟩]
    86400000000000 ⟨0, 86400000000000, 14400⟩ ⟨by decide, by decide⟩ (by decide) (by decide)).mpr ?_
    Int inferInstance (fun period => period.2 - period.1)
  -- No two of them directly follow each other.
  intro period _ _
  refine List.isChain_cons_cons.mpr ⟨fun _ hnext => ?_, List.isChain_pair.mpr fun hrecord => ?_⟩
  · exact absurd hnext (by decide)
  · exact absurd hrecord (by decide)

/-- Two loginwindow records ten hours apart, with nothing recorded between them, make twelve hours of
sleep. -/
theorem sleep_period_not_covered :
    ¬ ∀ (S : Type) (_ : LinearOrder S) (score : Period → S) (records : List ActivityRecord)
      (now : DateTime) (window : SleepWindow), TiledRecords records →
      (∀ record ∈ records, record.startTime ≤ now ∧ ∀ ended ∈ record.endTime, ended ≤ now) →
      1 ≤ window.minDurationSecs →
      ReallyAsleep records now window (findSleepPeriodWithWindow score records now window) := by
  intro hclaim
  have h := hclaim Int inferInstance (fun period => period.2 - period.1)
    [⟨1, none, 0, some 3600000000000, .locked, some (.sample "loginwindow" "" 1), 0, []⟩,
      ⟨2, none, 39600000000000, some 43200000000000, .locked, some (.sample "loginwindow" "" 1), 0, []⟩]
    86400000000000 ⟨0, 86400000000000, 14400⟩ ⟨by decide, by decide⟩ (by decide) (by decide)
  have hfound : findSleepPeriodWithWindow (fun period => period.2 - period.1)
      [⟨1, none, 0, some 3600000000000, .locked, some (.sample "loginwindow" "" 1), 0, []⟩,
        ⟨2, none, 39600000000000, some 43200000000000, .locked, some (.sample "loginwindow" "" 1), 0, []⟩]
      86400000000000 ⟨0, 86400000000000, 14400⟩ = some (0, 43200000000000) := by decide
  rw [hfound] at h
  obtain ⟨-, -, -, hcovered⟩ := h
  have hgap := hcovered 3600000000000 39600000000000 (by decide) (by decide) (by decide) (by decide)
  exact absurd hgap (by decide)

end Kronical
