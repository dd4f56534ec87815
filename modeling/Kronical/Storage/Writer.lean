import Mathlib.Data.List.TakeWhile
import Kronical.Lib.GroupCommit
import Kronical.Storage.Backend
import Kronical.Storage.Rows

/-!
# The background writers

Both writers execute commands inside one open transaction and commit it after every hundredth command.
They differ in what a failed statement costs: SQLite leaves the transaction open and goes on, DuckDB
rolls it back. So with DuckDB a command that fails takes the earlier commands of its hundred with it
(`failure_contained_iff`).
-/

namespace Kronical

/-- A command, and which of its `INSERT`s fail when they are executed. That DuckDB refuses everything
after a failure until the rollback is one such choice. -/
structure Attempt where
  command : StorageCommand
  fails : Nat → Bool

/-- A row in the database, by the command and the statement that inserted it. -/
structure StoredRow where
  command : Nat
  statement : Nat
  row : Row
  deriving DecidableEq, Repr

namespace Attempt

variable (serde : PayloadSerde)

/-- The `INSERT`s of the command, numbered. -/
def statements (self : Attempt) : List (Row × Nat) := (self.command.rows serde).zipIdx

/-- No `INSERT` of the command fails. -/
def Succeeded (self : Attempt) : Prop :=
  ∀ statement ∈ self.statements serde, self.fails statement.2 = false

/-- What is inserted. DuckDB's loop over compact events ignores errors, SQLite's breaks at one. -/
def inserted (backend : Backend) (self : Attempt) : List (Row × Nat) :=
  match backend, self.command with
  | .duckdb, .compactEvents _ =>
    (self.statements serde).filter fun statement => !self.fails statement.2
  | _, _ => (self.statements serde).takeWhile fun statement => !self.fails statement.2

/-- Whether `result` is an `Ok`. -/
def resultIsOk (backend : Backend) (self : Attempt) : Bool :=
  match backend, self.command with
  | .duckdb, .compactEvents _ => true
  | _, _ => (self.statements serde).all fun statement => !self.fails statement.2

def isShutdown (self : Attempt) : Bool :=
  match self.command with
  | .shutdown => true
  | _ => false

variable {serde} {backend : Backend}

theorem Succeeded.inserted {attempt : Attempt} (h : attempt.Succeeded serde) :
    attempt.inserted serde backend = attempt.statements serde := by
  have hall : ∀ statement ∈ attempt.statements serde, (!attempt.fails statement.2) = true := by
    intro statement hmem
    rw [h statement hmem]
    rfl
  unfold Attempt.inserted
  split
  · exact List.filter_eq_self.mpr hall
  · exact List.takeWhile_eq_self_iff.mpr hall

theorem Succeeded.resultIsOk {attempt : Attempt} (h : attempt.Succeeded serde) :
    attempt.resultIsOk serde backend = true := by
  unfold Attempt.resultIsOk
  split
  · rfl
  · rw [List.all_eq_true]
    intro statement hmem
    rw [h statement hmem]
    rfl

end Attempt

/-- The writer's connection and its count of commands. -/
abbrev Writer := Grouped StoredRow

namespace Writer

variable (serde : PayloadSerde) (backend : Backend)

/-- One turn of the loop. -/
def execute (self : Writer) (attempt : Attempt) : Writer :=
  let rows := (attempt.inserted serde backend).map fun statement =>
    (⟨self.count, statement.2, statement.1⟩ : StoredRow)
  let tx := self.transaction.insert rows
  let tx := match backend, attempt.resultIsOk serde backend with
    | .duckdb, false => tx.rollback
    | _, _ => tx
  let count := self.count + 1
  { transaction := if count % 100 = 0 then tx.commit else tx, count := count }

/-- `background_writer` up to its final commit. -/
def backgroundWriter : Writer → List Attempt → Writer
  | self, [] => { self with transaction := self.transaction.commit }
  | self, attempt :: attempts =>
    if attempt.isShutdown then { self with transaction := self.transaction.commit }
    else backgroundWriter (self.execute serde backend attempt) attempts

/-- The rows of the database after the final commit. -/
def stored (attempts : List Attempt) : List StoredRow :=
  (backgroundWriter serde backend .start attempts).transaction.durable

/-- The commands that a writer executes. -/
def processed (attempts : List Attempt) : List Attempt :=
  attempts.takeWhile fun attempt => !attempt.isShutdown

/-- The change that the command numbered `n` makes to the open transaction. -/
def change (n : Nat) (attempt : Attempt) : Change StoredRow :=
  if backend = .duckdb ∧ attempt.resultIsOk serde backend = false then .abort
  else .insert ((attempt.inserted serde backend).map fun statement => ⟨n, statement.2, statement.1⟩)

variable {serde backend}

theorem execute_eq (self : Writer) (attempt : Attempt) :
    self.execute serde backend attempt = self.write 100 (change serde backend self.count attempt) := by
  unfold execute Grouped.write change
  cases backend with
  | sqlite => rfl
  | duckdb =>
    cases hok : attempt.resultIsOk serde .duckdb with
    | false => rfl
    | true => rfl

theorem backgroundWriter_eq (attempts : List Attempt) (self : Writer) :
    (backgroundWriter serde backend self attempts).transaction.durable =
      ((processed attempts).foldl (execute serde backend) self).transaction.working := by
  induction attempts generalizing self with
  | nil => rfl
  | cons attempt attempts ih =>
    unfold backgroundWriter processed
    by_cases hshutdown : attempt.isShutdown
    · rw [if_pos hshutdown, List.takeWhile_cons_of_neg (by simp [hshutdown])]
      rfl
    · rw [if_neg hshutdown, List.takeWhile_cons_of_pos (by simp [hshutdown])]
      exact ih _

theorem foldl_execute (attempts : List Attempt) :
    attempts.foldl (execute serde backend) .start =
      (attempts.mapIdx (change serde backend)).foldl (Grouped.write 100) .start := by
  induction attempts using List.reverseRecOn with
  | nil => rfl
  | append_singleton attempts attempt ih =>
    have hcount : (attempts.foldl (execute serde backend) .start).count = attempts.length := by
      rw [ih, (Grouped.accounted_run 100 _).count, List.length_mapIdx]
    rw [List.foldl_append, List.foldl_cons, List.foldl_nil, execute_eq, hcount, ih, List.mapIdx_concat,
      List.foldl_append, List.foldl_cons, List.foldl_nil]

/-- With DuckDB, no command fails after another one of the same hundred that succeeded in inserting rows. -/
def NoneSacrificed (serde : PayloadSerde) (backend : Backend) (attempts : List Attempt) : Prop :=
  backend = .duckdb → ∀ i j failed earlier, attempts[i]? = some failed → attempts[j]? = some earlier →
    j < i → j / 100 = i / 100 → failed.resultIsOk serde .duckdb = false → earlier.Succeeded serde →
    earlier.statements serde = []

theorem mem_stored_iff (attempts : List Attempt) (stored : StoredRow) :
    stored ∈ Writer.stored serde backend attempts ↔
      Grouped.Kept 100 ((processed attempts).mapIdx (change serde backend)) stored.command stored := by
  unfold Writer.stored
  rw [backgroundWriter_eq, foldl_execute, Grouped.mem_run_iff]
  constructor
  · rintro ⟨j, ⟨⟨rows, hrows, hmem⟩, hkept⟩⟩
    have hcommand : stored.command = j := by
      rw [List.getElem?_mapIdx] at hrows
      obtain ⟨attempt, -, hchange⟩ := Option.map_eq_some_iff.mp hrows
      unfold change at hchange
      split_ifs at hchange
      rw [← Change.insert.inj hchange] at hmem
      obtain ⟨statement, -, rfl⟩ := List.mem_map.mp hmem
      rfl
    rw [hcommand]
    exact ⟨⟨rows, hrows, hmem⟩, hkept⟩
  · intro hkept
    exact ⟨stored.command, hkept⟩

theorem stored_of_succeeded {attempts : List Attempt} {j : Nat} {attempt : Attempt}
    (hj : (processed attempts)[j]? = some attempt) (hok : attempt.Succeeded serde) {statement : Row × Nat}
    (hmem : statement ∈ attempt.statements serde) :
    ⟨j, statement.2, statement.1⟩ ∈ stored serde backend attempts ↔
      ¬ Grouped.Discarded 100 ((processed attempts).mapIdx (change serde backend)) j := by
  rw [mem_stored_iff]
  unfold Grouped.Kept
  rw [and_iff_right]
  refine ⟨(attempt.statements serde).map fun statement => ⟨j, statement.2, statement.1⟩, ?_,
    List.mem_map.mpr ⟨statement, hmem, rfl⟩⟩
  rw [List.getElem?_mapIdx, hj, Option.map_some, change, hok.resultIsOk, hok.inserted, if_neg (by simp)]

/-- For both backends and every choice of the statements that fail: after the final commit the database
contains the rows of every command that succeeded if and only if no command sacrificed them. -/
theorem failure_contained_iff (serde : PayloadSerde) (backend : Backend) (attempts : List Attempt) :
    (∀ j attempt, (processed attempts)[j]? = some attempt → attempt.Succeeded serde →
      ∀ statement ∈ attempt.statements serde,
        ⟨j, statement.2, statement.1⟩ ∈ stored serde backend attempts) ↔
      NoneSacrificed serde backend (processed attempts) := by
  constructor
  · rintro h rfl i j failed earlier hi hj hlt hgroup hfails hok
    rw [List.eq_nil_iff_forall_not_mem]
    intro statement hmem
    have hdiscarded : Grouped.Discarded 100 ((processed attempts).mapIdx (change serde .duckdb)) j := by
      refine ⟨i, hlt.le, hgroup.symm, ?_⟩
      rw [List.getElem?_mapIdx, hi, Option.map_some, change, if_pos ⟨rfl, hfails⟩]
    exact (stored_of_succeeded hj hok hmem).mp (h j earlier hj hok statement hmem) hdiscarded
  · intro h j attempt hj hok statement hmem
    rw [stored_of_succeeded hj hok hmem]
    rintro ⟨i, hji, hgroup, hi⟩
    rw [List.getElem?_mapIdx] at hi
    obtain ⟨failed, hfailed, hchange⟩ := Option.map_eq_some_iff.mp hi
    unfold change at hchange
    split_ifs at hchange with hsacrifice
    obtain ⟨rfl, hfails⟩ := hsacrifice
    have hne : j ≠ i := by
      rintro rfl
      rw [Option.some.inj (hfailed.symm.trans hj), hok.resultIsOk] at hfails
      cases hfails
    have hnone := h rfl i j failed attempt hfailed hj (lt_of_le_of_ne hji hne) hgroup.symm hfails hok
    rw [hnone] at hmem
    cases hmem

/-- A codec that is not read from. -/
def blankSerde : PayloadSerde :=
  { keyboard := ⟨fun _ => "", fun _ => none⟩, mouse := ⟨fun _ => "", fun _ => none⟩,
    focus := ⟨fun _ => "", fun _ => none⟩, reason := id, title := ⟨fun _ => "", fun _ => none⟩,
    states := ⟨fun _ => "", fun _ => none⟩ }

/-- DuckDB loses the focus that was stored when the next command fails. -/
theorem failure_not_contained :
    ¬ ∀ j attempt, (processed
        [⟨.rawEvent (.windowFocusChange 0 7 (.sample "Editor" "a" 1)), fun _ => false⟩,
          ⟨.rawEvent (.windowFocusChange 1 8 (.sample "Editor" "b" 1)), fun _ => true⟩,
          ⟨.shutdown, fun _ => false⟩])[j]? = some attempt → attempt.Succeeded blankSerde →
      ∀ statement ∈ attempt.statements blankSerde,
        ⟨j, statement.2, statement.1⟩ ∈ stored blankSerde .duckdb
          [⟨.rawEvent (.windowFocusChange 0 7 (.sample "Editor" "a" 1)), fun _ => false⟩,
            ⟨.rawEvent (.windowFocusChange 1 8 (.sample "Editor" "b" 1)), fun _ => true⟩,
            ⟨.shutdown, fun _ => false⟩] := by
  intro h
  have hstored := h 0 _ rfl (fun _ _ => rfl) _ (List.mem_singleton_self _)
  revert hstored
  decide

end Writer

end Kronical
