import Kronical.Lib.Transactions
import Kronical.Storage.Backend

/-!
# Storing batches of samples

Both stores insert a batch of samples inside a transaction. SQLite's rolls back where an insertion fails;
DuckDB's has only `BEGIN` and `COMMIT`, and a failure between the two leaves it open, so that no later
batch can begin (`insert_contained_iff`).
-/

namespace Kronical

/-- A sample, with the bits of its `f64`. -/
structure SystemMetrics where
  timestamp : DateTime
  cpuPercent : UInt64
  memoryBytes : UInt64
  diskIoBytes : UInt64
  deriving DecidableEq, Repr

/-- The columns beside the primary key. -/
structure MetricsColumns where
  cpuPercent : UInt64
  memoryBytes : Int
  diskIoBytes : Int
  deriving DecidableEq, Repr

/-- `system_metrics`, with a timestamp column of type `T`. -/
abbrev MetricsTable (T : Type) := HashMap (T × Int) MetricsColumns

inductive MetricsStatement
  | begin
  | prepare
  | insert (i : Nat)
  | commit
  deriving DecidableEq, Repr

/-- The statements that fail for another reason than a key or an open transaction. -/
abbrev MetricsFaults := MetricsStatement → Bool

section

variable {T : Type} (column : DateTime → T)

namespace DuckDbSystemMetricsStore

/-- The parameters of the `INSERT`. -/
def row (pid : UInt32) (metric : SystemMetrics) : (T × Int) × MetricsColumns :=
  ((column metric.timestamp, pid.toNat),
    ⟨metric.cpuPercent, metric.memoryBytes.toNat, metric.diskIoBytes.toNat⟩)

def insertMetricsBatch [DecidableEq T] (fails : MetricsFaults) (metrics : List SystemMetrics) (pid : UInt32) :
    Connection.Program (MetricsTable T) Unit :=
  if metrics.isEmpty then pure ()
  else do
    Connection.statement (fails .begin) Connection.beginTransaction
    Connection.statement (fails .prepare) some
    Connection.writeAll Connection.insertRow (fun i => fails (.insert i)) 0
      (metrics.map (row column pid))
    Connection.statement (fails .commit) Connection.commit

end DuckDbSystemMetricsStore

namespace SqliteSystemMetricsStore

/-- The parameters of the `INSERT OR REPLACE`, with `as i64`. -/
def row (pid : UInt32) (metric : SystemMetrics) : (T × Int) × MetricsColumns :=
  ((column metric.timestamp, pid.toNat),
    ⟨metric.cpuPercent, metric.memoryBytes.toInt64.toInt, metric.diskIoBytes.toInt64.toInt⟩)

def insertMetricsBatch [DecidableEq T] (fails : MetricsFaults) (metrics : List SystemMetrics) (pid : UInt32) :
    Connection.Program (MetricsTable T) Unit :=
  if metrics.isEmpty then pure ()
  else do
    Connection.statement (fails .begin) Connection.beginTransaction
    -- `tx` is dropped where the rest stops.
    Connection.rollingBack do
      Connection.statement (fails .prepare) some
      Connection.writeAll Connection.replaceRow (fun i => fails (.insert i)) 0
        (metrics.map (row column pid))
      Connection.statement (fails .commit) Connection.commit

end SqliteSystemMetricsStore

namespace Backend

/-- The rows of a batch. -/
def metricsRows : Backend → List SystemMetrics → UInt32 → List ((T × Int) × MetricsColumns)
  | .duckdb, metrics, pid => metrics.map (DuckDbSystemMetricsStore.row column pid)
  | .sqlite, metrics, pid => metrics.map (SqliteSystemMetricsStore.row column pid)

def insertMetricsBatch [DecidableEq T] : Backend → MetricsFaults → List SystemMetrics → UInt32 →
    Connection.Program (MetricsTable T) Unit
  | .duckdb => DuckDbSystemMetricsStore.insertMetricsBatch column
  | .sqlite => SqliteSystemMetricsStore.insertMetricsBatch column

/-- How a batch's rows are written. -/
def writeRow [DecidableEq T] : Backend → (T × Int) × MetricsColumns → MetricsTable T → Option (MetricsTable T)
  | .duckdb => Connection.insertRow
  | .sqlite => Connection.replaceRow

/-- How a store leaves its connection where it stops. -/
def leave : Backend → Connection (MetricsTable T) → Connection (MetricsTable T)
  | .duckdb => id
  | .sqlite => Connection.rollback

end Backend

/-- No two rows of the batch have one key, and none has a key of the table. -/
def FreshRows (rows : List ((T × Int) × MetricsColumns)) (table : MetricsTable T) : Prop :=
  (rows.map Prod.fst).Nodup ∧ ∀ row ∈ rows, row.1 ∉ table

def Stores [DecidableEq T] (rows : List ((T × Int) × MetricsColumns)) (table : MetricsTable T) : Prop :=
  ∀ row ∈ rows, table.lookup row.1 = some row.2

/-- The batch is stored, or it fails with nothing changed and no transaction open; then a batch of fresh
keys can be stored next. -/
def Contained [DecidableEq T] (backend : Backend) (fails : MetricsFaults) (metrics : List SystemMetrics) (pid : UInt32)
    (conn : Connection (MetricsTable T)) : Prop :=
  match (backend.insertMetricsBatch column fails metrics pid).run conn with
  | .ok () after => Stores (backend.metricsRows column metrics pid) after.committed
  | .error () after => after.committed = conn.committed ∧ after.transaction = none ∧
      ∀ next pid', FreshRows (backend.metricsRows column next pid') after.committed →
        ∃ last, (backend.insertMetricsBatch column (fun _ => false) next pid').run after = .ok () last ∧
          Stores (backend.metricsRows column next pid') last.committed

/-- No statement between `BEGIN` and the end fails for a reason of its own. -/
def Faultless (fails : MetricsFaults) (metrics : List SystemMetrics) : Prop :=
  fails .prepare = false ∧ (∀ i < metrics.length, fails (.insert i) = false) ∧ fails .commit = false

/-- DuckDB's store needs a batch that fails nowhere after its `BEGIN`. SQLite's may fail, but has to keep
all its rows: samples with one key are stored as one row. -/
def Containable (backend : Backend) (fails : MetricsFaults) (metrics : List SystemMetrics) (pid : UInt32)
    (conn : Connection (MetricsTable T)) : Prop :=
  metrics = [] ∨ conn.transaction = none ∧ (fails .begin = true ∨
    match backend with
    | .duckdb => Faultless fails metrics ∧
      FreshRows (backend.metricsRows column metrics pid) conn.committed
    | .sqlite => Faultless fails metrics → ∀ row ∈ backend.metricsRows column metrics pid,
        ∀ row' ∈ backend.metricsRows column metrics pid, row.1 = row'.1 → row.2 = row'.2)

/-! ### What a batch does -/

variable {column} {backend : Backend} {fails : MetricsFaults} {metrics : List SystemMetrics} {pid : UInt32}
  {conn : Connection (MetricsTable T)}

/-- The statements after `BEGIN`. -/
def afterBegin (fails : MetricsFaults)
    (change : (T × Int) × MetricsColumns → MetricsTable T → Option (MetricsTable T))
    (rows : List ((T × Int) × MetricsColumns)) : Connection.Program (MetricsTable T) Unit := do
  Connection.statement (fails .prepare) some
  Connection.writeAll change (fun i => fails (.insert i)) 0 rows
  Connection.statement (fails .commit) Connection.commit

/-- How a store runs the statements after `BEGIN`. -/
def Backend.attempt : Backend → Connection.Program (MetricsTable T) Unit →
    Connection.Program (MetricsTable T) Unit
  | .duckdb => id
  | .sqlite => Connection.rollingBack

theorem Backend.run_attempt_ok {program : Connection.Program (MetricsTable T) Unit}
    {next : Connection (MetricsTable T)} (h : program.run conn = .ok () next) :
    (backend.attempt program).run conn = .ok () next := by
  cases backend with
  | duckdb => exact h
  | sqlite => exact Connection.rollingBack_ok h

theorem Backend.run_attempt_error {program : Connection.Program (MetricsTable T) Unit}
    {next : Connection (MetricsTable T)} (h : program.run conn = .error () next) :
    (backend.attempt program).run conn = .error () (backend.leave next) := by
  cases backend with
  | duckdb => exact h
  | sqlite => exact Connection.rollingBack_error h

variable (fails) in
theorem run_afterBegin (change : (T × Int) × MetricsColumns → MetricsTable T → Option (MetricsTable T))
    (rows : List ((T × Int) × MetricsColumns)) (hlength : rows.length = metrics.length)
    (table : MetricsTable T) :
    (∃ changed, Faultless fails metrics ∧
        rows.foldlM (fun table row => change row table) table = some changed ∧
        (afterBegin fails change rows).run ⟨table, some table⟩ = .ok () ⟨changed, none⟩) ∨
      ∃ left, ¬ (Faultless fails metrics ∧
          (rows.foldlM (fun table row => change row table) table).isSome) ∧
        (afterBegin fails change rows).run ⟨table, some table⟩ = .error () ⟨table, some left⟩ := by
  unfold afterBegin
  simp only [EStateM.run_bind]
  cases hprepare : fails .prepare with
  | true =>
    refine Or.inr ⟨table, fun h => ?_, rfl⟩
    rw [h.1.1] at hprepare
    cases hprepare
  | false =>
    have hprepared : (Connection.statement false some : Connection.Program (MetricsTable T) Unit).run
        ⟨table, some table⟩ = .ok () ⟨table, some table⟩ := rfl
    rw [hprepared]
    dsimp only
    rcases Connection.run_writeAll change (fun i => fails (.insert i)) rows 0 table table with
      ⟨changed, hchanged, hok, hrun⟩ | ⟨left, hfailed, hrun⟩
    · rw [hrun]
      simp only [Nat.zero_add, hlength] at hok
      cases hcommit : fails .commit with
      | true =>
        refine Or.inr ⟨changed, fun h => ?_, rfl⟩
        rw [h.1.2.2] at hcommit
        cases hcommit
      | false => exact Or.inl ⟨changed, ⟨hprepare, hok, hcommit⟩, hchanged, rfl⟩
    · rw [hrun]
      refine Or.inr ⟨left, fun h => hfailed ⟨h.2, ?_⟩, rfl⟩
      simp only [Nat.zero_add, hlength]
      exact h.1.2.1

theorem length_metricsRows : (backend.metricsRows column metrics pid).length = metrics.length := by
  cases backend <;> exact List.length_map ..

theorem FreshRows.unique {rows : List ((T × Int) × MetricsColumns)} {table : MetricsTable T}
    (h : FreshRows rows table) : ∀ row ∈ rows, ∀ row' ∈ rows, row.1 = row'.1 → row.2 = row'.2 := by
  intro row hrow row' hrow' hkey
  rw [List.inj_on_of_nodup_map h.1 hrow hrow' hkey]

variable [DecidableEq T]

theorem insertMetricsBatch_eq (hne : metrics ≠ []) :
    backend.insertMetricsBatch column fails metrics pid =
      (do
        Connection.statement (fails .begin) Connection.beginTransaction
        backend.attempt (afterBegin fails backend.writeRow (backend.metricsRows column metrics pid))) := by
  cases backend with
  | duckdb =>
    rw [Backend.insertMetricsBatch, DuckDbSystemMetricsStore.insertMetricsBatch, if_neg (by simp [hne])]
    rfl
  | sqlite =>
    rw [Backend.insertMetricsBatch, SqliteSystemMetricsStore.insertMetricsBatch, if_neg (by simp [hne])]
    rfl

theorem run_of_not_begun (hne : metrics ≠ [])
    (h : conn.transaction ≠ none ∨ fails .begin = true) :
    (backend.insertMetricsBatch column fails metrics pid).run conn = .error () conn := by
  have hbegin : (Connection.statement (fails .begin) Connection.beginTransaction).run conn =
      .error () conn := by
    rcases h with hopen | hfails
    · obtain ⟨table, htable⟩ := Option.ne_none_iff_exists'.mp hopen
      cases hfails : fails .begin <;>
        simp [EStateM.run, Connection.statement, Connection.beginTransaction, htable]
    · simp [EStateM.run, Connection.statement, hfails]
  rw [insertMetricsBatch_eq hne, EStateM.run_bind, hbegin]

variable (column backend fails pid) in
theorem run_of_begun (hne : metrics ≠ []) (hclosed : conn.transaction = none)
    (hfails : fails .begin = false) :
    (∃ changed, Faultless fails metrics ∧
        (backend.metricsRows column metrics pid).foldlM (fun table row => backend.writeRow row table)
          conn.committed = some changed ∧
        (backend.insertMetricsBatch column fails metrics pid).run conn = .ok () ⟨changed, none⟩) ∨
      ∃ left, ¬ (Faultless fails metrics ∧
          ((backend.metricsRows column metrics pid).foldlM (fun table row => backend.writeRow row table)
            conn.committed).isSome) ∧
        (backend.insertMetricsBatch column fails metrics pid).run conn =
          .error () (backend.leave ⟨conn.committed, some left⟩) := by
  have hbegin : (Connection.statement (fails .begin) Connection.beginTransaction).run conn =
      .ok () ⟨conn.committed, some conn.committed⟩ := by
    simp [EStateM.run, Connection.statement, Connection.beginTransaction, hfails, hclosed]
  rw [insertMetricsBatch_eq hne, EStateM.run_bind, hbegin]
  dsimp only
  rcases run_afterBegin fails backend.writeRow (backend.metricsRows column metrics pid)
    length_metricsRows conn.committed with ⟨changed, hok, hchanged, hrun⟩ | ⟨left, hfailed, hrun⟩
  · exact Or.inl ⟨changed, hok, hchanged, Backend.run_attempt_ok hrun⟩
  · exact Or.inr ⟨left, hfailed, Backend.run_attempt_error hrun⟩

variable (backend) in
theorem foldlM_writeRow (rows : List ((T × Int) × MetricsColumns)) (table : MetricsTable T) :
    (∀ changed, rows.foldlM (fun table row => backend.writeRow row table) table = some changed →
      changed = rows.foldl (fun table row => table.insert row.1 row.2) table) ∧
    ((rows.foldlM (fun table row => backend.writeRow row table) table).isSome ↔
      (backend = .duckdb → FreshRows rows table)) := by
  cases backend with
  | duckdb =>
    simp only [Backend.writeRow, Connection.foldlM_insertRow]
    by_cases hfresh : (rows.map Prod.fst).Nodup ∧ ∀ row ∈ rows, row.1 ∉ table
    · rw [if_pos hfresh]
      exact ⟨fun changed hchanged => (Option.some.inj hchanged).symm, iff_of_true rfl fun _ => hfresh⟩
    · rw [if_neg hfresh]
      exact ⟨nofun, iff_of_false nofun fun h => hfresh (h trivial)⟩
  | sqlite =>
    simp only [Backend.writeRow, Connection.foldlM_replaceRow]
    exact ⟨fun changed hchanged => (Option.some.inj hchanged).symm, iff_of_true rfl nofun⟩

theorem stored_of_fresh {next : List SystemMetrics} {pid' : UInt32} (hclosed : conn.transaction = none)
    (hfresh : FreshRows (backend.metricsRows column next pid') conn.committed) :
    ∃ last, (backend.insertMetricsBatch column (fun _ => false) next pid').run conn = .ok () last ∧
      Stores (backend.metricsRows column next pid') last.committed := by
  by_cases hne : next = []
  · subst hne
    refine ⟨conn, ?_, ?_⟩
    · cases backend <;> rfl
    · cases backend <;> exact nofun
  · obtain ⟨hwritten, hsome⟩ := foldlM_writeRow backend
      (backend.metricsRows column next pid') conn.committed
    rcases run_of_begun column backend (fun _ => false) pid' hne hclosed rfl with
      ⟨changed, -, hchanged, hrun⟩ | ⟨left, hfailed, -⟩
    · refine ⟨_, hrun, ?_⟩
      rw [hwritten changed hchanged]
      exact (Connection.lookup_foldl_insert_iff _ _).mpr hfresh.unique
    · exact absurd ⟨⟨rfl, fun _ _ => rfl, rfl⟩, hsome.mpr fun _ => hfresh⟩ hfailed

/-- For both stores and every batch on every connection: the batch is stored or has no effect, and the
store goes on, if and only if the batch is containable. -/
theorem insert_contained_iff (column : DateTime → T) (backend : Backend) (fails : MetricsFaults)
    (metrics : List SystemMetrics) (pid : UInt32) (conn : Connection (MetricsTable T)) :
    Contained column backend fails metrics pid conn ↔
      Containable column backend fails metrics pid conn := by
  unfold Contained Containable
  by_cases hne : metrics = []
  · subst hne
    refine iff_of_true ?_ (Or.inl rfl)
    cases backend <;> exact nofun
  rw [or_iff_right hne]
  by_cases hbegun : conn.transaction = none ∧ fails .begin = false
  · obtain ⟨hclosed, hfails⟩ := hbegun
    obtain ⟨hwritten, hsome⟩ := foldlM_writeRow backend
      (backend.metricsRows column metrics pid) conn.committed
    simp only [hclosed, hfails, true_and, Bool.false_eq_true, false_or]
    rcases run_of_begun column backend fails pid hne hclosed hfails with
      ⟨changed, hok, hchanged, hrun⟩ | ⟨left, hfailed, hrun⟩
    · rw [hrun]
      dsimp only
      rw [hwritten changed hchanged, Stores, Connection.lookup_foldl_insert_iff]
      cases backend with
      | duckdb =>
        have hfresh := hsome.mp (by rw [hchanged]; rfl) rfl
        exact iff_of_true hfresh.unique ⟨hok, hfresh⟩
      | sqlite => exact ⟨fun h _ => h, fun h => h hok⟩
    · rw [hrun]
      rw [hsome] at hfailed
      cases backend with
      | duckdb =>
        exact iff_of_false (fun h => nomatch h.2.1) fun h => hfailed ⟨h.1, fun _ => h.2⟩
      | sqlite =>
        refine iff_of_true ⟨rfl, rfl, fun next pid' hfresh => stored_of_fresh rfl hfresh⟩ fun hok => ?_
        exact absurd ⟨hok, nofun⟩ hfailed
  · have hstopped : conn.transaction ≠ none ∨ fails .begin = true := by
      rw [not_and_or, Bool.not_eq_false] at hbegun
      exact hbegun
    rw [run_of_not_begun hne hstopped]
    dsimp only
    constructor
    · rintro ⟨-, hclosed, -⟩
      exact ⟨hclosed, Or.inl (hstopped.resolve_left fun h => h hclosed)⟩
    · rintro ⟨hclosed, -⟩
      exact ⟨rfl, hclosed, fun next pid' hfresh => stored_of_fresh hclosed hfresh⟩

/-- Two samples of one moment. -/
def twinSamples : List SystemMetrics := [⟨0, 0, 1, 1⟩, ⟨0, 0, 2, 2⟩]

/-- DuckDB's store fails at the second sample and leaves its transaction open; a batch with a new key
fails after it. -/
theorem insert_not_contained :
    ∃ after, (Backend.duckdb.insertMetricsBatch id (fun _ => false) twinSamples 1).run ⟨∅, none⟩ =
        .error () after ∧ after.committed = ∅ ∧ after.transaction ≠ none ∧
      (Backend.duckdb.insertMetricsBatch id (fun _ => false) [⟨1, 0, 1, 1⟩] 1).run after =
        .error () after ∧
      ¬ Contained id .duckdb (fun _ => false) twinSamples 1 ⟨∅, none⟩ := by
  refine ⟨_, rfl, rfl, nofun, rfl, ?_⟩
  intro h
  exact nomatch h.2.1

end

end Kronical
