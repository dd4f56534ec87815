import Kronical.Core.Adapter
import Kronical.Pipeline.Downstream
import Kronical.Pipeline.Publish
import Kronical.Storage.Backend

/-!
# Record ids over restarts

Every session of a run numbers its records from the greatest id it finds in the database, among the
records of the run that the retention period still covers. As long as each session finds the last
record of the one before it, the ids of the run are `0, 1, 2, …` in the order of writing
(`Numbered`). A session that does not find it and opens a record gives an id a second time.
-/

namespace Kronical

/-- The first record id of a session. -/
def nextRecordId (runId : Option String) (initialRecords : List ActivityRecord) : Nat :=
  ((runId.bind fun _ => (initialRecords.map (·.recordId)).max?).map (· + 1)).getD 0

/-- One session of the daemon: the reading of the clock and the retention it starts with, and the
hints it handles until it ends, with the readings of the clock for each of them and for the end. -/
structure Session where
  started : DateTime
  retentionMinutes : Nat
  hints : List (EventEnvelope × RecordBuilder.HintClock)
  ended : RecordBuilder.HintClock
  deriving DecidableEq, Repr

namespace Session

/-- The records a session starting from `nextRecordId` sends to storage. -/
def records (self : Session) (runId : String) (nextRecordId : Nat) : List ActivityRecord :=
  recordsOf (HintsStage.loop.run (.new (some runId) nextRecordId)
    (HintsStage.received self.hints self.ended)).2

variable (toRfc3339 : DateTime → String) (backend : Backend) (runId : String)

/-- The start of the retained period. -/
def since (self : Session) : DateTime := self.started - minutes self.retentionMinutes

/-- The id a session starts its records from. -/
def firstRecordId (self : Session) (rows : List ActivityRecord) : Nat :=
  nextRecordId (some runId) (backend.fetchRecordsSince toRfc3339 rows self.since (some runId))

/-- The table after a session. -/
def commit (rows : List ActivityRecord) (self : Session) : List ActivityRecord :=
  rows ++ self.records runId (self.firstRecordId toRfc3339 backend runId rows)

/-- A session finds every row with the greatest record id. -/
def FindsLast (self : Session) (rows : List ActivityRecord) : Prop :=
  ∀ row ∈ rows, (∀ other ∈ rows, other.recordId ≤ row.recordId) →
    backend.recordMatches toRfc3339 self.since (some runId) row = true

end Session

/-! ### The ids of one session -/

/-- A row as it must be unique. -/
def rowKey (row : ActivityRecord) : Option String × Nat := (row.runId, row.recordId)

theorem Session.records_keys (self : Session) (runId : String) (first : Nat) :
    ∃ n, (self.records runId first).map rowKey =
        (List.range' first n).map (some runId, ·) ∧
      (n = 0 ↔ ∀ hint ∈ self.hints, RecordBuilder.opens hint.1 = false) := by
  let fresh := RecordBuilder.withNextRecordId .inactive first
  obtain ⟨n, hnext, hids⟩ := RecordBuilder.consume_ids fresh self.hints
  refine ⟨n, ?_, ?_⟩
  · rw [records, (HintsStage.loop_received (.new (some runId) first) self.hints self.ended).1,
      List.map_map]
    show ((HintsStage.new (some runId) first).builderRecords self.hints self.ended).map
      ((some runId, ·) ∘ (·.recordId)) = _
    rw [← List.map_map, HintsStage.builderRecords, List.map_append]
    show ((RecordBuilder.consume.run fresh self.hints).2.map (·.recordId) ++
      ((RecordBuilder.consume.run fresh self.hints).1.finalizeCurrent
        self.ended.closed).2.toList.map (·.recordId)).map _ = _
    rw [RecordBuilder.finalizeCurrent_id]
    exact congrArg (List.map _) hids
  · rw [← RecordBuilder.consume_fresh_iff first self.hints, hnext]
    show n = 0 ↔ first + n = first
    omega

/-! ### The ids of a run -/

section

variable {toRfc3339 : DateTime → String} {backend : Backend} {runId : String}

/-- The rows are numbered from zero, in the order they were written. -/
def Numbered (runId : String) (rows : List ActivityRecord) (n : Nat) : Prop :=
  rows.map rowKey = (List.range n).map (some runId, ·)

theorem Numbered.nodup {rows : List ActivityRecord} {n : Nat} (h : Numbered runId rows n) :
    (rows.map rowKey).Nodup := by
  rw [h]
  exact (List.nodup_range).map fun a b hab => (Prod.mk.inj hab).2

theorem Numbered.mem_iff {rows : List ActivityRecord} {n : Nat} (h : Numbered runId rows n)
    (id : Nat) : (∃ row ∈ rows, rowKey row = (some runId, id)) ↔ id < n := by
  rw [← List.mem_map, h]
  simp

theorem Numbered.key {rows : List ActivityRecord} {n : Nat} (h : Numbered runId rows n)
    {row : ActivityRecord} (hrow : row ∈ rows) : row.runId = some runId ∧ row.recordId < n := by
  have hkey : rowKey row ∈ (List.range n).map (some runId, ·) := h ▸ List.mem_map_of_mem hrow
  obtain ⟨id, hid, heq⟩ := List.mem_map.mp hkey
  obtain ⟨hrunId, hrowId⟩ : some runId = row.runId ∧ id = row.recordId := Prod.mk.inj heq
  rw [← hrowId]
  exact ⟨hrunId.symm, List.mem_range.mp hid⟩

theorem mem_fetchRecordsSince {rows : List ActivityRecord} {since : DateTime}
    {runId : Option String} {row : ActivityRecord} :
    row ∈ backend.fetchRecordsSince toRfc3339 rows since runId ↔
      row ∈ rows ∧ backend.recordMatches toRfc3339 since runId row = true := by
  rw [Backend.fetchRecordsSince, List.mem_insertionSort, List.mem_filter]

theorem Session.firstRecordId_found {self : Session} {rows : List ActivityRecord} {n : Nat}
    (h : Numbered runId rows n) (hfound : self.FindsLast toRfc3339 backend runId rows) :
    self.firstRecordId toRfc3339 backend runId rows = n := by
  unfold firstRecordId nextRecordId
  rw [Option.bind_some]
  cases n with
  | zero =>
    have hrows : rows = [] := List.map_eq_nil_iff.mp h
    rw [hrows]
    rfl
  | succ m =>
    obtain ⟨row, hrow, hkey⟩ := (h.mem_iff m).mpr (Nat.lt_succ_self m)
    have hid : row.recordId = m := (Prod.mk.inj hkey).2
    have hmax : ((backend.fetchRecordsSince toRfc3339 rows self.since (some runId)).map
        (·.recordId)).max? = some m := by
      refine List.max?_eq_some_iff.mpr ⟨?_, ?_⟩
      · refine List.mem_map.mpr ⟨row, mem_fetchRecordsSince.mpr ⟨hrow, hfound row hrow ?_⟩, hid⟩
        intro other hother
        have hlt := (h.key hother).2
        omega
      · intro id hmem
        obtain ⟨other, hother, rfl⟩ := List.mem_map.mp hmem
        have hlt := (h.key (mem_fetchRecordsSince.mp hother).1).2
        omega
    rw [hmax]
    rfl

theorem Session.firstRecordId_lost {self : Session} {rows : List ActivityRecord} {n : Nat}
    (h : Numbered runId rows n) (hlost : ¬ self.FindsLast toRfc3339 backend runId rows) :
    self.firstRecordId toRfc3339 backend runId rows < n := by
  unfold FindsLast at hlost
  push Not at hlost
  obtain ⟨last, hlast, hgreatest, hmiss⟩ := hlost
  have hbound := (h.key hlast).2
  have hless : ∀ row ∈ backend.fetchRecordsSince toRfc3339 rows self.since (some runId),
      row.recordId < last.recordId := by
    intro row hrow
    obtain ⟨hstored, hmatch⟩ := mem_fetchRecordsSince.mp hrow
    refine lt_of_le_of_ne (hgreatest row hstored) fun hid => hmiss ?_
    have hkeys : rowKey row = rowKey last :=
      Prod.ext ((h.key hstored).1.trans (h.key hlast).1.symm) hid
    rwa [List.inj_on_of_nodup_map h.nodup hstored hlast hkeys] at hmatch
  unfold firstRecordId nextRecordId
  rw [Option.bind_some]
  cases hmax : ((backend.fetchRecordsSince toRfc3339 rows self.since (some runId)).map
      (·.recordId)).max? with
  | none =>
    show 0 < n
    omega
  | some id =>
    obtain ⟨row, hrow, rfl⟩ := List.mem_map.mp (List.max?_eq_some_iff.mp hmax).1
    have hlt := hless row hrow
    show row.recordId + 1 < n
    omega

theorem Session.commit_numbered {self : Session} {rows : List ActivityRecord} {n : Nat}
    (h : Numbered runId rows n)
    (hsession : (∀ hint ∈ self.hints, RecordBuilder.opens hint.1 = false) ∨
      self.FindsLast toRfc3339 backend runId rows) :
    ∃ m, Numbered runId (Session.commit toRfc3339 backend runId rows self) m := by
  obtain ⟨k, hkeys, hnone⟩ :=
    self.records_keys runId (self.firstRecordId toRfc3339 backend runId rows)
  refine ⟨n + k, ?_⟩
  unfold Numbered commit
  rw [List.map_append, h, hkeys, ← List.map_append]
  refine congrArg (List.map _) ?_
  rcases hsession with hidle | hfound
  · rw [hnone.mpr hidle]
    exact List.append_nil _
  · rw [firstRecordId_found h hfound, List.range_eq_range', List.range_eq_range',
      ← List.range'_append_1, Nat.zero_add]

theorem Session.commit_collides {self : Session} {rows : List ActivityRecord} {n : Nat}
    (h : Numbered runId rows n)
    (hopens : ¬ ∀ hint ∈ self.hints, RecordBuilder.opens hint.1 = false)
    (hlost : ¬ self.FindsLast toRfc3339 backend runId rows) :
    ¬ ((Session.commit toRfc3339 backend runId rows self).map rowKey).Nodup := by
  obtain ⟨k, hkeys, hnone⟩ :=
    self.records_keys runId (self.firstRecordId toRfc3339 backend runId rows)
  have hfirst := firstRecordId_lost h hlost
  unfold commit
  rw [List.map_append, h, hkeys]
  intro hnodup
  have hk : k ≠ 0 := fun hzero => hopens (hnone.mp hzero)
  refine List.disjoint_of_nodup_append hnodup
    (List.mem_map_of_mem (List.mem_range.mpr hfirst)) (List.mem_map_of_mem ?_)
  rw [List.mem_range'_1]
  omega

theorem prefix_foldl_commit (rows : List ActivityRecord) (sessions : List Session) :
    rows <+: sessions.foldl (Session.commit toRfc3339 backend runId) rows := by
  induction sessions generalizing rows with
  | nil => exact List.prefix_rfl
  | cons session sessions ih => exact (List.prefix_append rows _).trans (ih _)

theorem Numbered.unique_iff {rows : List ActivityRecord} {n : Nat} (h : Numbered runId rows n)
    (sessions : List Session) :
    ((sessions.foldl (Session.commit toRfc3339 backend runId) rows).map rowKey).Nodup ↔
      ∀ before session after, sessions = before ++ session :: after →
        (∀ hint ∈ session.hints, RecordBuilder.opens hint.1 = false) ∨
          session.FindsLast toRfc3339 backend runId
            (before.foldl (Session.commit toRfc3339 backend runId) rows) := by
  induction sessions generalizing rows n with
  | nil =>
    refine iff_of_true h.nodup fun before session after hsplit => ?_
    exact absurd hsplit (by simp)
  | cons first sessions ih =>
    by_cases hfirst : (∀ hint ∈ first.hints, RecordBuilder.opens hint.1 = false) ∨
        first.FindsLast toRfc3339 backend runId rows
    · obtain ⟨m, hnext⟩ := first.commit_numbered h hfirst
      rw [List.foldl_cons, ih hnext]
      constructor
      · intro hrest before session after hsplit
        cases before with
        | nil =>
          obtain ⟨rfl, -⟩ := List.cons.inj hsplit
          exact hfirst
        | cons head before =>
          obtain ⟨rfl, htail⟩ := List.cons.inj hsplit
          exact hrest before session after htail
      · intro hall before session after hsplit
        exact hall (first :: before) session after (congrArg (first :: ·) hsplit)
    · refine iff_of_false ?_ fun hall => hfirst (hall [] first sessions rfl)
      rw [not_or] at hfirst
      intro hnodup
      refine first.commit_collides h hfirst.1 hfirst.2 ?_
      exact hnodup.sublist ((prefix_foldl_commit _ sessions).sublist.map rowKey)

end

/-- For every sequence of sessions of a run on one database, from an empty table on and with either
backend: no two rows ever written have the same run id and record id, if and only if every session
that is given a hint that opens a record finds the row with the greatest id in its retention
period. -/
theorem record_ids_unique_iff (toRfc3339 : DateTime → String) (backend : Backend) (runId : String)
    (sessions : List Session) :
    ((sessions.foldl (Session.commit toRfc3339 backend runId) []).map rowKey).Nodup ↔
      ∀ before session after, sessions = before ++ session :: after →
        (∀ hint ∈ session.hints, RecordBuilder.opens hint.1 = false) ∨
          session.FindsLast toRfc3339 backend runId
            (before.foldl (Session.commit toRfc3339 backend runId) []) := by
  have hempty : Numbered runId [] 0 := rfl
  exact hempty.unique_iff sessions

/-- Two sessions of a run, each with one focus: the second is started two minutes after the end of
the first, with a retention of one minute. -/
theorem record_id_written_twice :
    ¬ (([⟨0, 1, [(EventAdapter.focusChanged 1 1 (.sample "Editor" "a" 1), ⟨1, 1⟩)], ⟨2, 2⟩⟩,
        ⟨120000000002, 1,
          [(EventAdapter.focusChanged 1 120000000003 (.sample "Editor" "a" 1),
            ⟨120000000003, 120000000003⟩)], ⟨120000000004, 120000000004⟩⟩].foldl
        (Session.commit (fun _ => "") .duckdb "run") []).map rowKey).Nodup := by
  decide

end Kronical
