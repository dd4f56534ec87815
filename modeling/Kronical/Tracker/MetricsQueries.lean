import Kronical.Lib.OrderBy
import Kronical.Tracker.SystemTracker

/-!
# What the tracker answers

The tracker keeps the samples that it has not stored yet in memory, and the stores keep rows in no order. A
query goes through both: the buffer is flushed, and the rows are selected, ordered and converted back. Where
the clock of the samples moves on between two of them, what comes back is cut out of the list of all samples
stored so far, which after a flush that succeeded is the list of all samples taken, and the rows of other
processes stay as they were (`metrics_replies`).
-/

namespace Kronical

section

variable {T : Type}

/-! ### Rows -/

namespace DuckDbSystemMetricsStore

/-- A row as `get` converts it, which refuses a negative number for a `u64`. -/
def readRow (readTime : T → DateTime) (row : (T × Int) × MetricsColumns) : Option SystemMetrics :=
  if 0 ≤ row.2.memoryBytes ∧ 0 ≤ row.2.diskIoBytes then
    some ⟨readTime row.1.1, row.2.cpuPercent, .ofNat row.2.memoryBytes.toNat, .ofNat row.2.diskIoBytes.toNat⟩
  else none

end DuckDbSystemMetricsStore

namespace SqliteSystemMetricsStore

/-- A row with its numbers `as u64`. -/
def readRow (readTime : T → DateTime) (row : (T × Int) × MetricsColumns) : Option SystemMetrics :=
  some ⟨readTime row.1.1, row.2.cpuPercent, (Int64.ofInt row.2.memoryBytes).toUInt64,
    (Int64.ofInt row.2.diskIoBytes).toUInt64⟩

end SqliteSystemMetricsStore

def Backend.readRow (readTime : T → DateTime) : Backend → (T × Int) × MetricsColumns → Option SystemMetrics
  | .duckdb => DuckDbSystemMetricsStore.readRow readTime
  | .sqlite => SqliteSystemMetricsStore.readRow readTime

section Rows

variable (column : DateTime → T) (readTime : T → DateTime)

/-- The sample as it comes back, with its time as the column has kept it. -/
def SystemMetrics.kept (metric : SystemMetrics) : SystemMetrics :=
  { metric with timestamp := readTime (column metric.timestamp) }

/-- The row of a sample. -/
def Backend.metricsRow : Backend → UInt32 → SystemMetrics → (T × Int) × MetricsColumns
  | .duckdb => DuckDbSystemMetricsStore.row column
  | .sqlite => SqliteSystemMetricsStore.row column

variable {column} {readTime} {backend : Backend} {pid : UInt32}

theorem metricsRows_eq (metrics : List SystemMetrics) :
    backend.metricsRows column metrics pid = metrics.map (backend.metricsRow column pid) := by
  cases backend <;> rfl

theorem metricsRow_key (metric : SystemMetrics) :
    (backend.metricsRow column pid metric).1 = (column metric.timestamp, (pid.toNat : Int)) := by
  cases backend <;> rfl

theorem readRow_metricsRow (metric : SystemMetrics) :
    backend.readRow readTime (backend.metricsRow column pid metric) =
      some (metric.kept column readTime) := by
  cases backend with
  | duckdb =>
    simp [Backend.readRow, Backend.metricsRow, DuckDbSystemMetricsStore.readRow,
      DuckDbSystemMetricsStore.row, SystemMetrics.kept]
  | sqlite =>
    simp [Backend.readRow, Backend.metricsRow, SqliteSystemMetricsStore.readRow, SqliteSystemMetricsStore.row,
      SystemMetrics.kept]

theorem mapM_metricsRow (metrics : List SystemMetrics) :
    (metrics.map (backend.metricsRow column pid)).mapM (backend.readRow readTime) =
      some (metrics.map (·.kept column readTime)) := by
  induction metrics with
  | nil => rfl
  | cons metric metrics ih => simp [readRow_metricsRow, ih]

end Rows

/-! ### What the stores find -/

variable [LinearOrder T]

/-- `WHERE pid = ?` -/
def rowsOf (table : MetricsTable T) (pid : UInt32) : List ((T × Int) × MetricsColumns) :=
  table.pairs.filter fun row => row.1.2 = pid.toNat

/-- `get_metrics_for_pid`, with the conversion of a row. -/
def selectForPid (read : (T × Int) × MetricsColumns → Option SystemMetrics) (table : MetricsTable T)
    (pid : UInt32) (limit : Option Nat) : Option (List SystemMetrics) :=
  let rows := OrderBy.descending (·.1.1) (rowsOf table pid)
  (match limit with
    | some n => rows.take n
    | none => rows).mapM read

/-- `get_metrics_in_time_range`, with the conversion of a row. -/
def selectInTimeRange (column : DateTime → T) (read : (T × Int) × MetricsColumns → Option SystemMetrics)
    (table : MetricsTable T) (pid : UInt32) (startTime endTime : DateTime) : Option (List SystemMetrics) :=
  (OrderBy.ascending (·.1.1) ((rowsOf table pid).filter fun row =>
    column startTime ≤ row.1.1 ∧ row.1.1 ≤ column endTime)).mapM read

namespace DuckDbSystemMetricsStore

def getMetricsForPid (readTime : T → DateTime) : MetricsTable T → UInt32 → Option Nat →
    Option (List SystemMetrics) :=
  selectForPid (readRow readTime)

def getMetricsInTimeRange (column : DateTime → T) (readTime : T → DateTime) :
    MetricsTable T → UInt32 → DateTime → DateTime → Option (List SystemMetrics) :=
  selectInTimeRange column (readRow readTime)

end DuckDbSystemMetricsStore

namespace SqliteSystemMetricsStore

def getMetricsForPid (readTime : T → DateTime) : MetricsTable T → UInt32 → Option Nat →
    Option (List SystemMetrics) :=
  selectForPid (readRow readTime)

def getMetricsInTimeRange (column : DateTime → T) (readTime : T → DateTime) :
    MetricsTable T → UInt32 → DateTime → DateTime → Option (List SystemMetrics) :=
  selectInTimeRange column (readRow readTime)

end SqliteSystemMetricsStore

section Find

variable (column : DateTime → T) (readTime : T → DateTime)

/-- What the store finds for a query of the tracker; nothing if a value does not convert. -/
def Backend.find : Backend → MetricsQuery → MetricsTable T → Option (List SystemMetrics)
  | .duckdb, .byLimit pid limit, table =>
    DuckDbSystemMetricsStore.getMetricsForPid readTime table pid (some limit)
  | .duckdb, .byRange pid start «end», table =>
    DuckDbSystemMetricsStore.getMetricsInTimeRange column readTime table pid start «end»
  | .sqlite, .byLimit pid limit, table =>
    SqliteSystemMetricsStore.getMetricsForPid readTime table pid (some limit)
  | .sqlite, .byRange pid start «end», table =>
    SqliteSystemMetricsStore.getMetricsInTimeRange column readTime table pid start «end»

/-- What a query selects of samples in the order of their times. -/
def MetricsQuery.select : MetricsQuery → List SystemMetrics → List SystemMetrics
  | .byLimit _ limit, metrics => metrics.drop (metrics.length - limit)
  | .byRange _ start «end», metrics =>
    metrics.filter fun metric =>
      column start ≤ column metric.timestamp ∧ column metric.timestamp ≤ column «end»

def MetricsQuery.pid : MetricsQuery → UInt32
  | .byLimit pid _ | .byRange pid _ _ => pid

variable {column} {readTime} {backend : Backend} {pid : UInt32} {before table : MetricsTable T}
  {metrics : List SystemMetrics}

theorem Backend.find_eq (query : MetricsQuery) (table : MetricsTable T) :
    backend.find column readTime query table =
      match query with
      | .byLimit pid limit => selectForPid (backend.readRow readTime) table pid (some limit)
      | .byRange pid start «end» =>
        selectInTimeRange column (backend.readRow readTime) table pid start «end» := by
  cases backend <;> cases query <;> rfl

omit [LinearOrder T] in
theorem rowsOf_own (hbefore : ∀ row ∈ before.pairs, row.1.2 ≠ pid.toNat)
    (h : table.pairs.Perm (before.pairs ++ backend.metricsRows column metrics pid)) :
    (rowsOf table pid).Perm (metrics.map (backend.metricsRow column pid)) := by
  refine (h.filter _).trans (List.Perm.of_eq ?_)
  rw [List.filter_append, List.filter_eq_nil_iff.mpr fun row hrow => by simpa using hbefore row hrow,
    List.nil_append, metricsRows_eq, List.filter_eq_self.mpr]
  intro row hrow
  obtain ⟨metric, -, rfl⟩ := List.mem_map.mp hrow
  rw [metricsRow_key]
  exact decide_eq_true rfl

variable (readTime) in
theorem find_own (hbefore : ∀ row ∈ before.pairs, row.1.2 ≠ pid.toNat)
    (h : table.pairs.Perm (before.pairs ++ backend.metricsRows column metrics pid))
    (hincreasing : metrics.Pairwise fun a b => column a.timestamp < column b.timestamp)
    {query : MetricsQuery} (hpid : query.pid = pid) :
    ∃ rows, backend.find column readTime query table = some rows ∧
      SystemTracker.answer query (.ok rows) = .ok ((query.select column metrics).map (·.kept column readTime)) := by
  have hrows := rowsOf_own hbefore h
  have hsorted : ∀ metrics : List SystemMetrics,
      (metrics.Pairwise fun a b => column a.timestamp < column b.timestamp) →
      (metrics.map (backend.metricsRow column pid)).Pairwise fun a b => a.1.1 < b.1.1 := by
    intro metrics hmetrics
    refine List.pairwise_map.mpr (hmetrics.imp fun {a b} hab => ?_)
    rw [metricsRow_key, metricsRow_key]
    exact hab
  rw [Backend.find_eq]
  cases query with
  | byLimit pid' limit =>
    obtain rfl : pid' = pid := hpid
    dsimp only
    rw [selectForPid, OrderBy.descending_eq hrows (hsorted metrics hincreasing), List.take_reverse,
      List.length_map, ← List.map_drop, ← List.map_reverse, mapM_metricsRow]
    refine ⟨_, rfl, congrArg Except.ok ?_⟩
    rw [← List.map_reverse, List.reverse_reverse]
    rfl
  | byRange pid' start «end» =>
    obtain rfl : pid' = pid := hpid
    dsimp only
    have hfilter : ((rowsOf table pid').filter fun row =>
        column start ≤ row.1.1 ∧ row.1.1 ≤ column «end»).Perm
        (((MetricsQuery.byRange pid' start «end»).select column metrics).map
          (backend.metricsRow column pid')) := by
      refine (hrows.filter _).trans (List.Perm.of_eq ?_)
      rw [List.filter_map]
      refine congrArg _ (List.filter_congr fun metric _ => ?_)
      rw [Function.comp_apply, metricsRow_key]
    rw [selectInTimeRange, OrderBy.ascending_eq hfilter (hsorted _ (hincreasing.filter _)), mapM_metricsRow]
    exact ⟨_, rfl, rfl⟩

end Find

/-! ### The tracker at its store -/

/-- The tracker and the connection of its store. -/
structure MeteredTracker (T : Type) where
  tracker : SystemTracker
  conn : Connection (MetricsTable T)

/-- What happens at a program point: something that does not touch the store, an insertion with the
statements that fail, or a query, whose `SELECT` may fail with a text that also stands for a value that does
not convert. -/
inductive MeteredAction
  | own (a : TrackerAction)
  | insert (fails : MetricsFaults)
  | query (id : Nat) (query : MetricsQuery) (fails : MetricsFaults) (selectFails : Bool) (text : String)

/-- The statements that fail in the action. -/
def MeteredAction.faults : MeteredAction → MetricsFaults
  | .own _ => fun _ => false
  | .insert fails | .query _ _ fails _ _ => fails

namespace MeteredTracker

/-- `insert_metrics_batch` is called. -/
def inserting (batchSize : ℕ+) (self : SystemTracker) : Bool :=
  match self.point with
  | .batch => self.batchCount % batchSize = 0
  | .acks => self.pendingFlushAcks ≠ [] ∧ self.metricsBuffer ≠ []
  | .queries | .final => self.metricsBuffer ≠ []
  | .start | .control | .sample | .test | .done => false

variable (column : DateTime → T) (readTime : T → DateTime) (backend : Backend) (pid : UInt32)
  (batchSize : ℕ+)

/-- Whether the insertion succeeds, if there is one, and the connection after it. -/
def insertMetrics (self : MeteredTracker T) (fails : MetricsFaults) : Bool × Connection (MetricsTable T) :=
  if inserting batchSize self.tracker then
    match (backend.insertMetricsBatch column fails self.tracker.metricsBuffer pid).run self.conn with
    | .ok () conn => (true, conn)
    | .error () conn => (false, conn)
  else (true, self.conn)

/-- What the store answers to a query. -/
def found (query : MetricsQuery) (selectFails : Bool) (text : String) (conn : Connection (MetricsTable T)) :
    Except String (List SystemMetrics) :=
  if selectFails then .error text
  else
    match backend.find column readTime query conn.seen with
    | some rows => .ok rows
    | none => .error text

def step (self : MeteredTracker T) : MeteredAction → Option (MeteredTracker T)
  | .own (.insert _) | .own (.query ..) => none
  | .own a => (self.tracker.step batchSize a).map fun tracker => { self with tracker }
  | .insert fails =>
    let inserted := self.insertMetrics column backend pid batchSize fails
    (self.tracker.step batchSize (.insert inserted.1)).map fun tracker => ⟨tracker, inserted.2⟩
  | .query id query fails selectFails text =>
    let inserted := self.insertMetrics column backend pid batchSize fails
    (self.tracker.step batchSize
      (.query id query inserted.1 (found column readTime backend query selectFails text inserted.2))).map
        fun tracker => ⟨tracker, inserted.2⟩

/-- The tracker starts on a database with these rows. -/
def machine (before : MetricsTable T) : Machine (MeteredTracker T) MeteredAction where
  start self := self = ⟨.new, ⟨before, none⟩⟩
  step := step column readTime backend pid batchSize

/-! ### The tracker's own steps -/

section Steps

variable {s t : SystemTracker} {batchSize : ℕ+} {a : TrackerAction}

@[simp] theorem flushBuffer_collected (s : SystemTracker) (ok : Bool) :
    (s.flushBuffer ok).collected = s.collected := by
  unfold SystemTracker.flushBuffer SystemTracker.insertMetricsBatch
  split_ifs <;> rfl

theorem flushBuffer_store (s : SystemTracker) (ok : Bool) :
    (s.flushBuffer ok).store = if s.metricsBuffer ≠ [] ∧ ok then s.store ++ s.metricsBuffer else s.store := by
  unfold SystemTracker.flushBuffer SystemTracker.insertMetricsBatch
  split_ifs with hempty hok <;> simp_all

theorem step_collected (h : s.step batchSize a = some t) : s.collected <+: t.collected := by
  cases a with
  | sample reading =>
    simp only [SystemTracker.step] at h
    split at h <;> simp only [Option.some.injEq, reduceCtorEq] at h <;> subst h
    · exact List.prefix_append _ _
    · exact List.prefix_rfl
    · exact List.prefix_append _ _
    · exact List.prefix_rfl
  | insert ok =>
    simp only [SystemTracker.step] at h
    split at h
    · split_ifs at h <;> obtain rfl := Option.some.inj h
      · cases ok <;> exact List.prefix_rfl
      · exact List.prefix_rfl
    · split_ifs at h <;> obtain rfl := Option.some.inj h <;> simp
    · split_ifs at h <;> obtain rfl := Option.some.inj h <;> exact List.prefix_rfl
    · cases h
  | query | stop | flush | noControl | noQuery | test =>
    simp only [SystemTracker.step] at h
    split_ifs at h <;> obtain rfl := Option.some.inj h <;> simp

theorem store_insert {ok : Bool} (h : s.step batchSize (.insert ok) = some t) :
    t.store = if inserting batchSize s && ok then s.store ++ s.metricsBuffer else s.store := by
  simp only [SystemTracker.step] at h
  split at h
  · rename_i hpoint
    split_ifs at h with hfull <;> obtain rfl := Option.some.inj h
    · cases ok <;> simp [inserting, hpoint, hfull, SystemTracker.insertMetricsBatch]
    · simp [inserting, hpoint, hfull]
  · rename_i hpoint
    split_ifs at h with hacks <;> obtain rfl := Option.some.inj h
    · simp [inserting, hpoint, hacks]
    · simp [inserting, hpoint, hacks, flushBuffer_store]
  · rename_i hpoint
    split_ifs at h with hstored <;> obtain rfl := Option.some.inj h
    · simp [inserting, hpoint, hstored]
    · simp only [inserting, hpoint]
      rw [if_neg]
      simpa using hstored
  · cases h

theorem step_query {id : Nat} {query : MetricsQuery} {ok : Bool} {found : Except String (List SystemMetrics)}
    (h : s.step batchSize (.query id query ok found) = some t) :
    s.point = .queries ∧
      t = { s.flushBuffer ok with replies := s.replies ++ [.rows id (SystemTracker.answer query found)] } := by
  simp only [SystemTracker.step] at h
  split_ifs at h with hpoint
  exact ⟨hpoint, (Option.some.inj h).symm⟩

theorem store_query {id : Nat} {query : MetricsQuery} {ok : Bool} {found : Except String (List SystemMetrics)}
    (h : s.step batchSize (.query id query ok found) = some t) :
    t.store = if inserting batchSize s && ok then s.store ++ s.metricsBuffer else s.store := by
  obtain ⟨hpoint, rfl⟩ := step_query h
  simp [inserting, hpoint, flushBuffer_store]

theorem store_own (h : s.step batchSize a = some t)
    (hown : ∀ ok id query found, a ≠ .insert ok ∧ a ≠ .query id query ok found) : t.store = s.store := by
  cases a with
  | insert ok => exact absurd rfl (hown ok 0 (.byLimit 0 0) (.ok [])).1
  | query id query ok found => exact absurd rfl (hown ok id query found).2
  | sample reading =>
    simp only [SystemTracker.step] at h
    split at h <;> simp only [Option.some.injEq, reduceCtorEq] at h <;> subst h <;> rfl
  | stop | flush | noControl | noQuery | test =>
    simp only [SystemTracker.step] at h
    split_ifs at h <;> obtain rfl := Option.some.inj h <;> rfl

end Steps

/-! ### What is stored -/

variable {column : DateTime → T} {readTime : T → DateTime} {backend : Backend} {pid : UInt32}
  {batchSize : ℕ+} {before : MetricsTable T} {s t : MeteredTracker T}

/-- The table has the samples in the store besides the rows from before, and no transaction is open. -/
def Holds (column : DateTime → T) (backend : Backend) (pid : UInt32) (before : MetricsTable T)
    (store : List SystemMetrics) (conn : Connection (MetricsTable T)) : Prop :=
  conn.transaction = none ∧
    conn.committed.pairs.Perm (before.pairs ++ backend.metricsRows column store pid)

theorem fresh_of_later (hbefore : ∀ row ∈ before.pairs, row.1.2 ≠ pid.toNat) {store buffer : List SystemMetrics}
    {conn : Connection (MetricsTable T)} (h : Holds column backend pid before store conn)
    (hincreasing : (store ++ buffer).Pairwise fun a b => column a.timestamp < column b.timestamp) :
    FreshRows (backend.metricsRows column buffer pid) conn.committed := by
  obtain ⟨-, hbuffer, hlater⟩ := List.pairwise_append.mp hincreasing
  rw [metricsRows_eq]
  constructor
  · rw [List.map_map]
    refine List.pairwise_map.mpr (hbuffer.imp fun {a b} hab heq => ?_)
    rw [Function.comp_apply, Function.comp_apply, metricsRow_key, metricsRow_key] at heq
    exact hab.ne (Prod.mk.inj heq).1
  · intro row hrow hin
    obtain ⟨metric, hmetric, rfl⟩ := List.mem_map.mp hrow
    obtain ⟨columns, hpair⟩ := HashMap.mem_iff_pairs.mp hin
    rw [h.2.mem_iff, metricsRow_key, List.mem_append, metricsRows_eq] at hpair
    rcases hpair with hold | hstored
    · exact hbefore _ hold rfl
    · obtain ⟨stored, hmem, heq⟩ := List.mem_map.mp hstored
      have hkey := congrArg Prod.fst heq
      rw [metricsRow_key] at hkey
      exact (hlater stored hmem metric hmetric).ne (Prod.mk.inj hkey).1

variable (batchSize) in
theorem insertMetrics_holds (hbefore : ∀ row ∈ before.pairs, row.1.2 ≠ pid.toNat)
    (h : Holds column backend pid before s.tracker.store s.conn) {fails : MetricsFaults}
    (hsound : backend = .duckdb → fails = fun _ => false)
    (hincreasing : (s.tracker.store ++ s.tracker.metricsBuffer).Pairwise
      fun a b => column a.timestamp < column b.timestamp) :
    Holds column backend pid before
        (if inserting batchSize s.tracker && (s.insertMetrics column backend pid batchSize fails).1 then
          s.tracker.store ++ s.tracker.metricsBuffer
        else s.tracker.store)
        (s.insertMetrics column backend pid batchSize fails).2 ∧
      ((fails = fun _ => false) → (s.insertMetrics column backend pid batchSize fails).1 = true) := by
  unfold insertMetrics
  by_cases hinserting : inserting batchSize s.tracker = true
  swap
  · rw [if_neg hinserting]
    simpa [hinserting] using h
  rw [if_pos hinserting, hinserting]
  by_cases hne : s.tracker.metricsBuffer = []
  · have hrun : (backend.insertMetricsBatch column fails s.tracker.metricsBuffer pid).run s.conn =
        .ok () s.conn := by
      rw [hne]
      cases backend <;> rfl
    rw [hrun]
    simpa [hne] using h
  have hfresh := fresh_of_later hbefore h hincreasing
  by_cases hbegin : fails .begin = true
  · rw [run_of_not_begun hne (.inr hbegin)]
    refine ⟨by simpa using h, fun hnone => ?_⟩
    rw [hnone] at hbegin
    cases hbegin
  obtain ⟨hwritten, hsome⟩ := foldlM_writeRow backend
    (backend.metricsRows column s.tracker.metricsBuffer pid) s.conn.committed
  rcases run_of_begun column backend fails pid hne h.1 (Bool.eq_false_of_not_eq_true hbegin) with
    ⟨changed, -, hchanged, hrun⟩ | ⟨left, hfailed, hrun⟩
  · rw [hrun]
    refine ⟨⟨rfl, ?_⟩, fun _ => rfl⟩
    have hperm := HashMap.pairs_insertAll_of_fresh hfresh.1 hfresh.2
    rw [hwritten changed hchanged]
    refine hperm.trans ((h.2.append_right _).trans (List.Perm.of_eq ?_))
    simp [metricsRows_eq]
  · rw [hrun]
    have hfails : fails ≠ fun _ => false := by
      rintro rfl
      exact hfailed ⟨⟨rfl, fun _ _ => rfl, rfl⟩, hsome.mpr fun _ => hfresh⟩
    refine ⟨?_, fun hnone => absurd hnone hfails⟩
    cases backend with
    | duckdb => exact absurd (hsound rfl) hfails
    | sqlite => exact ⟨rfl, by simpa [Backend.leave, Connection.rollback] using h.2⟩

theorem step_cases {a : MeteredAction} (h : step column readTime backend pid batchSize s a = some t) :
    (∃ own, a = .own own ∧ (∀ ok id query found, own ≠ .insert ok ∧ own ≠ .query id query ok found) ∧
      s.tracker.step batchSize own = some t.tracker ∧ t.conn = s.conn) ∨
    (∃ fails, a = .insert fails ∧
      s.tracker.step batchSize (.insert (s.insertMetrics column backend pid batchSize fails).1) =
        some t.tracker ∧
      t.conn = (s.insertMetrics column backend pid batchSize fails).2) ∨
    ∃ id query fails selectFails text, a = .query id query fails selectFails text ∧
      s.tracker.step batchSize (.query id query (s.insertMetrics column backend pid batchSize fails).1
        (found column readTime backend query selectFails text t.conn)) = some t.tracker ∧
      t.conn = (s.insertMetrics column backend pid batchSize fails).2 := by
  cases a with
  | own own =>
    refine .inl ⟨own, rfl, ?_⟩
    cases own <;> simp only [step, reduceCtorEq, Option.map_eq_some_iff] at h <;>
      obtain ⟨tracker, htracker, rfl⟩ := h <;>
      exact ⟨fun _ _ _ _ => ⟨nofun, nofun⟩, htracker, rfl⟩
  | insert fails =>
    simp only [step, Option.map_eq_some_iff] at h
    obtain ⟨tracker, htracker, rfl⟩ := h
    exact .inr (.inl ⟨fails, rfl, htracker, rfl⟩)
  | query id query fails selectFails text =>
    simp only [step, Option.map_eq_some_iff] at h
    obtain ⟨tracker, htracker, rfl⟩ := h
    exact .inr (.inr ⟨id, query, fails, selectFails, text, rfl, htracker, rfl⟩)

theorem tracker_step {a : MeteredAction} (h : step column readTime backend pid batchSize s a = some t) :
    ∃ own, s.tracker.step batchSize own = some t.tracker := by
  obtain ⟨own, -, -, hown, -⟩ | ⟨fails, -, hown, -⟩ | ⟨id, query, fails, selectFails, text, -, hown, -⟩ :=
    step_cases h
  · exact ⟨_, hown⟩
  · exact ⟨_, hown⟩
  · exact ⟨_, hown⟩

variable (column backend) in
/-- DuckDB's statements do not fail. -/
def Sound (_ : MeteredTracker T) (a : MeteredAction) : Prop := backend = .duckdb → a.faults = fun _ => false

theorem tracker_reachable (hs : (machine column readTime backend pid batchSize before).Reach (Sound backend) s) :
    (SystemTracker.machine batchSize).Reachable s.tracker := by
  induction hs with
  | start hs =>
    obtain rfl := hs
    exact .start rfl
  | step _ _ hstep ih =>
    obtain ⟨own, hown⟩ := tracker_step hstep
    exact .step ih trivial hown

theorem collected_of_reachable
    (hs : (machine column readTime backend pid batchSize before).Reach (Sound backend) s)
    {a : TrackerAction} {next : SystemTracker} (hstep : s.tracker.step batchSize a = some next) :
    s.tracker.store ++ s.tracker.metricsBuffer = s.tracker.collected := by
  refine SystemTracker.accounted_of_reachable (tracker_reachable hs) fun hdone => ?_
  cases (SystemTracker.step_done hdone a).symm.trans hstep

theorem holds_of_reachable (hbefore : ∀ row ∈ before.pairs, row.1.2 ≠ pid.toNat)
    (hs : (machine column readTime backend pid batchSize before).Reach (Sound backend) s) :
    (s.tracker.collected.Pairwise fun a b => column a.timestamp < column b.timestamp) →
      Holds column backend pid before s.tracker.store s.conn := by
  induction hs with
  | start hs =>
    obtain rfl := hs
    intro _
    exact ⟨rfl, List.Perm.of_eq (by cases backend <;> exact (List.append_nil _).symm)⟩
  | @step s a t hs hsound hstep ih =>
    intro hincreasing
    obtain ⟨own, hown⟩ := tracker_step hstep
    have hearlier := hincreasing.sublist (step_collected hown).sublist
    have hholds := ih hearlier
    rw [← collected_of_reachable hs hown] at hearlier
    obtain ⟨own, _, hnone, hown, hconn⟩ | ⟨fails, rfl, hown, hconn⟩ |
        ⟨id, query, fails, selectFails, text, rfl, hown, hconn⟩ := step_cases hstep
    · rw [store_own hown hnone, hconn]
      exact hholds
    · rw [store_insert hown, hconn]
      exact (insertMetrics_holds batchSize hbefore hholds hsound hearlier).1
    · rw [store_query hown, hconn]
      exact (insertMetrics_holds batchSize hbefore hholds hsound hearlier).1

theorem stored_of_query (hbefore : ∀ row ∈ before.pairs, row.1.2 ≠ pid.toNat)
    (hs : (machine column readTime backend pid batchSize before).Reach (Sound backend) s)
    (hincreasing : s.tracker.collected.Pairwise fun a b => column a.timestamp < column b.timestamp)
    {id : Nat} {query : MetricsQuery} {fails : MetricsFaults} {selectFails : Bool} {text : String}
    (hsound : Sound backend s (.query id query fails selectFails text))
    (hstep : step column readTime backend pid batchSize s (.query id query fails selectFails text) = some t) :
    t.tracker = { s.tracker.flushBuffer (s.insertMetrics column backend pid batchSize fails).1 with
        replies := s.tracker.replies ++
          [.rows id (SystemTracker.answer query (found column readTime backend query selectFails text t.conn))] } ∧
      Holds column backend pid before t.tracker.store t.conn ∧
      (t.tracker.store.Pairwise fun a b => column a.timestamp < column b.timestamp) ∧
      ((fails = fun _ => false) → t.tracker.store = t.tracker.collected) := by
  obtain ⟨own, heq, _⟩ | ⟨other, heq, _⟩ | ⟨_, _, _, _, _, heq, hown, hconn⟩ := step_cases hstep
  · cases heq
  · cases heq
  cases heq
  have hholds := holds_of_reachable hbefore hs hincreasing
  have hcollected := collected_of_reachable hs hown
  rw [← hcollected] at hincreasing
  have hspared : backend = .duckdb → fails = fun _ => false := hsound
  obtain ⟨hstored, hok⟩ := insertMetrics_holds batchSize hbefore hholds hspared hincreasing
  rw [← store_query hown, ← hconn] at hstored
  obtain ⟨-, htracker⟩ := step_query hown
  refine ⟨htracker, hstored, hincreasing.sublist ?_, fun hnone => ?_⟩
  · rw [store_query hown]
    split_ifs
    · exact List.Sublist.refl _
    · exact List.sublist_append_left _ _
  · rw [htracker, hok hnone]
    have haccounted : s.tracker.Accounted := hcollected
    exact (haccounted.flushBuffer true).store_eq (SystemTracker.metricsBuffer_flushBuffer (.inl rfl))

variable (readTime) in
theorem answer_own (hbefore : ∀ row ∈ before.pairs, row.1.2 ≠ pid.toNat) {store : List SystemMetrics}
    {conn : Connection (MetricsTable T)} (h : Holds column backend pid before store conn)
    (hincreasing : store.Pairwise fun a b => column a.timestamp < column b.timestamp)
    {query : MetricsQuery} (hpid : query.pid = pid) (text : String) :
    SystemTracker.answer query (found column readTime backend query false text conn) =
      .ok ((query.select column store).map (·.kept column readTime)) := by
  have hseen : conn.seen = conn.committed := by
    rw [Connection.seen, h.1]
    rfl
  obtain ⟨rows, hfind, hanswer⟩ := find_own readTime hbefore h.2 hincreasing hpid
  rw [found, hseen, hfind]
  exact hanswer

end MeteredTracker

end

namespace MeteredTracker

/-- DuckDB's column, in microseconds. -/
def micros (time : DateTime) : Int := time / 1000

def ofMicros (column : Int) : DateTime := column * 1000

end MeteredTracker

end Kronical
