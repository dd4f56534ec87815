import Kronical.Storage.Envelopes
import Kronical.Storage.Rfc3339

/-!
# Time filters of SQLite

SQLite compares the texts of instants. Of the years 0 to 9999 they are ordered like the instants, so its
queries select and sort rows by time (`sqlite_filters_chronological`).
-/

namespace Kronical

namespace Backend

/-! ### Sorting by time -/

/-- The list has just these elements, sorted by their times. -/
structure SortedBy {α : Type*} (time : α → DateTime) (le : DateTime → DateTime → Prop) (rows sorted : List α) :
    Prop where
  perm : sorted.Perm rows
  sorted : sorted.Pairwise fun r s => le (time r) (time s)

theorem sqlite_le {t t' : DateTime} (ht : InYears t) (ht' : InYears t') :
    Backend.sqlite.le toRfc3339 t t' = decide (t ≤ t') :=
  decide_eq_decide.mpr (toRfc3339_le_iff ht ht')

theorem sortedBy_insertionSort (before : DateTime → DateTime → Bool) (le : DateTime → DateTime → Prop)
    (htrans : ∀ {a b c}, before a b = true → before b c = true → before a c = true)
    (htotal : ∀ a b, (before a b || before b a) = true)
    (hbefore : ∀ {t t'}, InYears t → InYears t' → (before t t' = true ↔ le t t')) {α : Type*}
    {time : α → DateTime} {rows : List α} (hrows : ∀ row ∈ rows, InYears (time row)) :
    SortedBy time le rows (rows.insertionSort fun r s => before (time r) (time s)) := by
  have htrans' : IsTrans α fun r s => before (time r) (time s) = true := ⟨fun _ _ _ => htrans⟩
  have htotal' : Std.Total fun r s : α => before (time r) (time s) = true := ⟨fun r s => by
    simpa only [Bool.or_eq_true] using htotal (time r) (time s)⟩
  have hperm : (rows.insertionSort fun r s => before (time r) (time s)).Perm rows :=
    List.perm_insertionSort _ rows
  refine ⟨hperm, (List.pairwise_insertionSort _ rows).imp_of_mem fun hr hs h => ?_⟩
  exact (hbefore (hrows _ (hperm.mem_iff.mp hr)) (hrows _ (hperm.mem_iff.mp hs))).mp h

theorem sqlite_le_iff {t t' : DateTime} (ht : InYears t) (ht' : InYears t') :
    Backend.sqlite.le toRfc3339 t t' = true ↔ t ≤ t' := by
  rw [sqlite_le ht ht', decide_eq_true_iff]

theorem sqlite_oldest {α : Type*} {time : α → DateTime} {rows : List α}
    (hrows : ∀ row ∈ rows, InYears (time row)) :
    SortedBy time (· ≤ ·) rows
      (rows.insertionSort fun r s => Backend.sqlite.le toRfc3339 (time r) (time s)) :=
  sortedBy_insertionSort (Backend.sqlite.le toRfc3339) (· ≤ ·) trans_le (total_le .sqlite)
    sqlite_le_iff hrows

theorem sqlite_newest {α : Type*} {time : α → DateTime} {rows : List α}
    (hrows : ∀ row ∈ rows, InYears (time row)) :
    SortedBy time (· ≥ ·) rows
      (rows.insertionSort fun r s => Backend.sqlite.le toRfc3339 (time s) (time r)) :=
  sortedBy_insertionSort (fun t t' => Backend.sqlite.le toRfc3339 t' t) (· ≥ ·)
    (fun hab hbc => trans_le hbc hab) (fun a b => total_le .sqlite b a)
    (fun ht ht' => sqlite_le_iff ht' ht) hrows

/-! ### The queries -/

/-- The row is of the run, if one is asked for. -/
def ofRun (runId rowRunId : Option String) : Bool := runId.all fun id => rowRunId = some id

section Records

variable {rows : List ActivityRecord} {since : DateTime}
  (hrows : ∀ row ∈ rows, InYears row.startTime ∧ ∀ ended ∈ row.endTime, InYears ended)
  (hsince : InYears since)

include hrows hsince

theorem sqlite_fetchRecordsSince (runId : Option String) :
    SortedBy (·.startTime) (· ≤ ·)
      (rows.filter fun row => row.endTime.all (since ≤ ·) && ofRun runId row.runId)
      (Backend.sqlite.fetchRecordsSince toRfc3339 rows since runId) := by
  have hfilter : rows.filter (Backend.sqlite.recordMatches toRfc3339 since runId) =
      rows.filter fun row => row.endTime.all (since ≤ ·) && ofRun runId row.runId := by
    refine List.filter_congr fun row hrow => ?_
    rw [recordMatches, ofRun]
    refine congrArg (· && _) ?_
    cases hend : row.endTime with
    | none => rw [Option.all_none, Option.all_none]
    | some ended => rw [Option.all_some, Option.all_some, sqlite_le hsince ((hrows row hrow).2 ended hend)]
  rw [← hfilter]
  exact sqlite_oldest fun row hrow => (hrows row (List.mem_filter.mp hrow).1).1

end Records

section Transitions

variable {rows : List Transition} {since : DateTime} (hrows : ∀ row ∈ rows, InYears row.atTime)
  (hsince : InYears since)

include hrows hsince

theorem sqlite_fetchRecentTransitions (runId : Option String) (limit : Nat) :
    ∃ newest, SortedBy (·.atTime) (· ≥ ·)
        (rows.filter fun row => since ≤ row.atTime && ofRun runId row.runId) newest ∧
      Backend.sqlite.fetchRecentTransitions toRfc3339 rows since runId limit = newest.take limit := by
  have hfilter : rows.filter (Backend.sqlite.transitionMatches toRfc3339 since runId) =
      rows.filter fun row => since ≤ row.atTime && ofRun runId row.runId := by
    refine List.filter_congr fun row hrow => ?_
    rw [transitionMatches, ofRun, sqlite_le hsince (hrows row hrow)]
  refine ⟨_, ?_, rfl⟩
  rw [← hfilter]
  exact sqlite_newest fun row hrow => hrows row (List.mem_filter.mp hrow).1

end Transitions

section Envelopes

variable {serde : PayloadSerde} {parseRfc3339 : String → Option DateTime}

theorem mapM_eq_some {α β : Type} {f : α → Option β} {g : α → β} {l : List α}
    (h : ∀ a ∈ l, f a = some (g a)) : l.mapM f = some (l.map g) := by
  induction l with
  | nil => rfl
  | cons a l ih =>
    rw [List.mapM_cons, h a List.mem_cons_self, ih fun b hb => h b (List.mem_cons_of_mem _ hb)]
    rfl

variable {rows : List (EnvelopeRow DateTime Bool)} {since until_ : DateTime}
  (hrows : ∀ row ∈ rows, InYears row.timestamp) (hsince : InYears since) (huntil : InYears until_)
  (hparse : ∀ row ∈ rows, parseRfc3339 (toRfc3339 row.timestamp) = some row.timestamp)

include hrows hsince huntil hparse

theorem sqlite_fetchEnvelopesBetween :
    ∃ oldest, SortedBy (·.timestamp) (· ≤ ·)
        (rows.filter fun row => since ≤ row.timestamp && row.timestamp ≤ until_) oldest ∧
      Backend.sqlite.fetchEnvelopesBetween serde toRfc3339 parseRfc3339 rows since until_ =
        some (oldest.map (·.envelope serde)) := by
  have hfilter : (rows.map (sqliteRow toRfc3339)).filter
      (fun row => toRfc3339 since ≤ row.timestamp && row.timestamp ≤ toRfc3339 until_) =
        (rows.filter fun row => since ≤ row.timestamp && row.timestamp ≤ until_).map
          (sqliteRow toRfc3339) := by
    rw [List.filter_map]
    refine congrArg _ (List.filter_congr fun row hrow => ?_)
    have hlow := toRfc3339_le_iff hsince (hrows row hrow)
    have hhigh := toRfc3339_le_iff (hrows row hrow) huntil
    exact congrArg₂ (· && ·) (decide_eq_decide.mpr hlow) (decide_eq_decide.mpr hhigh)
  have hmem : ∀ row ∈ rows.filter fun row => since ≤ row.timestamp && row.timestamp ≤ until_,
      row ∈ rows := fun row hrow => (List.mem_filter.mp hrow).1
  have hsorted := sqlite_oldest fun row hrow => hrows row (hmem row hrow)
  refine ⟨_, hsorted, ?_⟩
  have hsort := List.map_insertionSort
    (fun r s : EnvelopeRow DateTime Bool =>
      Backend.sqlite.le toRfc3339 r.timestamp s.timestamp = true)
    (fun r s : EnvelopeRow String Int => r.timestamp ≤ s.timestamp) (sqliteRow toRfc3339)
    (rows.filter fun row => since ≤ row.timestamp && row.timestamp ≤ until_)
    (fun r _ s _ => decide_eq_true_iff)
  unfold fetchEnvelopesBetween
  dsimp only
  rw [hfilter, ← hsort, List.mapM_map]
  exact mapM_eq_some fun row hrow =>
    sqliteEnvelope_sqliteRow (hparse row (hmem row (hsorted.perm.mem_iff.mp hrow)))

end Envelopes

end Backend

open OrderedText Backend

/-- For all stored rows, bounds, runs and limits whose instants are in the years 0 to 9999, and envelopes
whose instants are read as they were written: the bytes of the stored texts are ordered like the instants;
`fetch_records_since` returns just the rows of the run that had not ended before `since`, by start time;
`fetch_recent_transitions` the first `limit` of the rows of the run from `since` on, the newest first; and
`fetch_envelopes_between` just the rows from `since` to `until`, the oldest first. -/
theorem sqlite_filters_chronological (serde : PayloadSerde) (parseRfc3339 : String → Option DateTime)
    (records : List ActivityRecord) (transitions : List Transition)
    (envelopes : List (EnvelopeRow DateTime Bool)) (since until_ : DateTime) (runId : Option String)
    (limit : Nat) (hsince : InYears since) (huntil : InYears until_)
    (hrecords : ∀ row ∈ records, InYears row.startTime ∧ ∀ ended ∈ row.endTime, InYears ended)
    (htransitions : ∀ row ∈ transitions, InYears row.atTime)
    (henvelopes : ∀ row ∈ envelopes, InYears row.timestamp)
    (hparse : ∀ row ∈ envelopes, parseRfc3339 (toRfc3339 row.timestamp) = some row.timestamp) :
    (∀ t t', InYears t → InYears t' → (bytes (toRfc3339 t) < bytes (toRfc3339 t') ↔ t < t')) ∧
      SortedBy (·.startTime) (· ≤ ·)
        (records.filter fun row => row.endTime.all (since ≤ ·) && ofRun runId row.runId)
        (Backend.sqlite.fetchRecordsSince toRfc3339 records since runId) ∧
      (∃ newest, SortedBy (·.atTime) (· ≥ ·)
          (transitions.filter fun row => since ≤ row.atTime && ofRun runId row.runId) newest ∧
        Backend.sqlite.fetchRecentTransitions toRfc3339 transitions since runId limit =
          newest.take limit) ∧
      ∃ oldest, SortedBy (·.timestamp) (· ≤ ·)
          (envelopes.filter fun row => since ≤ row.timestamp && row.timestamp ≤ until_) oldest ∧
        Backend.sqlite.fetchEnvelopesBetween serde toRfc3339 parseRfc3339 envelopes since until_ =
          some (oldest.map (·.envelope serde)) :=
  ⟨fun _ _ => bytes_toRfc3339_lt_iff, sqlite_fetchRecordsSince hrecords hsince runId,
    sqlite_fetchRecentTransitions htransitions hsince runId limit,
    sqlite_fetchEnvelopesBetween henvelopes hsince huntil hparse⟩

/-- A record that ended half a second after a whole second, and one that ended half a second before it. -/
theorem sqlite_filters_half_seconds :
    (Backend.sqlite.fetchRecordsSince toRfc3339
        [⟨1, none, 0, some 1500000000, .active, none, 0, []⟩,
          ⟨2, none, 0, some 500000000, .active, none, 0, []⟩] 1000000000 none).Perm
      [⟨1, none, 0, some 1500000000, .active, none, 0, []⟩] :=
  (sqlite_filters_chronological sampleSerde (fun _ => some 0) _ [⟨.inactive, .active, 0, none, none⟩]
    [envelopeRow sampleSerde (EventAdapter.titleChange 7 0 (.sample "Editor" "b" 1))]
    1000000000 0 none 1 (by decide +kernel) (by decide +kernel) (by decide +kernel) (by decide +kernel)
    (by decide +kernel) (fun row hrow => by rw [List.mem_singleton.mp hrow]; rfl)).2.1.perm

end Kronical
