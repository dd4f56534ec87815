import Kronical.Lib.Machine
import Kronical.Lib.Ring
import Kronical.Storage.Writer

/-!
# The storage of a session

The daemon hands its commands to a writer through a channel, and drops the storage by sending `Shutdown`
behind them and waiting for the writer. Whoever reads the database has a connection of its own and sees
the rows that are committed, which are also those that a crash leaves behind: while the writer runs the
rows of the complete hundreds of commands, and once the storage is dropped all of them
(`visible_rows`). A command or a `COMMIT` that fails is reported to the health list of the snapshots,
except that DuckDB's failures at compact events are not (`health_empty_iff`).

What becomes of the rows once a `COMMIT` has failed is up to the engine, so nothing is said about them
from then on.
-/

namespace Kronical

/-- A command that the writer has executed, with the errors of its result and of the `COMMIT` behind it, if
they are errors. -/
structure Executed where
  attempt : Attempt
  error : String
  commitError : Option String

/-- The storage of a session and the database behind it, which is new. -/
structure Database where
  /-- What the daemon has handed over. -/
  given : List StorageCommand
  queue : List StorageCommand
  log : List Executed
  /-- The error of the final `COMMIT`. -/
  finalError : Option String
  writer : Writer
  health : List String
  dropped : Bool
  /-- The writer has left its loop. -/
  finished : Bool

inductive DatabaseAction
  | add (command : StorageCommand)
  | drop
  /-- The writer receives a command: which of its statements fail, and with which error, the error of the
  `COMMIT` behind it, if that fails, and what the engine holds if a `COMMIT` has failed. -/
  | write (fails : Nat → Bool) (error : String) (commitError : Option String)
      (left : Transaction StoredRow)

namespace Database

variable (serde : PayloadSerde) (backend : Backend)

def new : Database := ⟨[], [], [], none, .start, [], false, false⟩

/-- `add_compact_events` does not send an empty list. -/
def isSent : StorageCommand → Bool
  | .compactEvents events => !events.isEmpty
  | _ => true

def isShutdown : StorageCommand → Bool
  | .shutdown => true
  | _ => false

def writeReport : Backend → String → String
  | .sqlite, error => s!"db write error: {error}"
  | .duckdb, error => s!"duckdb write error: {error}"

def commitReport : Backend → String → String
  | .sqlite, error => s!"db commit error: {error}"
  | .duckdb, error => s!"duckdb commit error: {error}"

def finalReport : Backend → String → String
  | .sqlite, error => s!"db final commit error: {error}"
  | .duckdb, error => s!"duckdb final commit error: {error}"

/-- What the writer pushes to the health list at a command. -/
def reportsOf (executed : Executed) : List String :=
  (if executed.attempt.resultIsOk serde backend then [] else [writeReport backend executed.error]) ++
    (executed.commitError.map (commitReport backend)).toList

/-- One turn of the loop. -/
def execute (self : Database) (attempt : Attempt) (error : String) (commitError : Option String)
    (left : Transaction StoredRow) (queue : List StorageCommand) : Database :=
  let writer := self.writer.execute serde backend attempt
  let executed : Executed := ⟨attempt, error, if writer.count % 100 = 0 then commitError else none⟩
  let log := self.log ++ [executed]
  { self with
    queue
    log
    writer :=
      if ∀ executed ∈ log, executed.commitError = none then writer else { writer with transaction := left }
    health := (reportsOf serde backend executed).foldl (Ring.push 64) self.health }

/-- The end of the writer. -/
def finish (self : Database) (commitError : Option String) (left : Transaction StoredRow)
    (queue : List StorageCommand) : Database :=
  { self with
    queue
    finalError := commitError
    writer :=
      if (∀ executed ∈ self.log, executed.commitError = none) ∧ commitError = none then
        { self.writer with transaction := self.writer.transaction.commit }
      else { self.writer with transaction := left }
    health := (commitError.map (finalReport backend)).toList.foldl (Ring.push 64) self.health
    finished := true }

def step (self : Database) : DatabaseAction → Option Database
  | .add command =>
    if self.dropped || isShutdown command then none
    else if isSent command then
      some { self with given := self.given ++ [command], queue := self.queue ++ [command] }
    else some { self with given := self.given ++ [command] }
  | .drop =>
    if self.dropped then none
    else some { self with queue := self.queue ++ [.shutdown], dropped := true }
  | .write fails error commitError left =>
    if self.finished then none
    else
      match self.queue with
      | [] => none
      | .shutdown :: queue => some (self.finish backend commitError left queue)
      | command :: queue =>
        some (self.execute serde backend ⟨command, fails⟩ error commitError left queue)

def machine : Machine Database DatabaseAction where
  start self := self = new
  step := step serde backend

/-- The rows that a reader sees, and that a crash leaves behind. -/
def visible (self : Database) : List Row := self.writer.transaction.durable.map (·.row)

def sent (self : Database) : List StorageCommand := self.given.filter isSent

def attempts (self : Database) : List Attempt := self.log.map Executed.attempt

/-- Every `COMMIT` so far has succeeded. -/
def Committed (self : Database) : Prop :=
  (∀ executed ∈ self.log, executed.commitError = none) ∧ self.finalError = none

/-- No statement has failed. -/
structure WithoutFailure (serde : PayloadSerde) (db : Database) : Prop where
  succeeded : ∀ attempt ∈ db.attempts, attempt.Succeeded serde
  committed : db.Committed

/-- What the writer had to report. -/
def reports (self : Database) : List String :=
  self.log.flatMap (reportsOf serde backend) ++ (self.finalError.map (finalReport backend)).toList

variable {serde backend}

/-- What holds of the storage: the commands are executed in the order they were sent in, the health list
is what the executed ones make of it, and so is the connection as long as no `COMMIT` has failed. -/
structure Consistent (serde : PayloadSerde) (backend : Backend) (db : Database) : Prop where
  executed : db.attempts.map (·.command) ++ db.queue.filter (!isShutdown ·) = db.sent
  pending : db.finished = false →
    ∃ commands, (∀ command ∈ commands, isShutdown command = false) ∧
      db.queue = commands ++ if db.dropped then [.shutdown] else []
  finished : db.finished = true → db.dropped = true ∧ db.queue = []
  working : db.Committed → (db.attempts.foldl (Writer.execute serde backend) .start).transaction.working =
    db.writer.transaction.working
  running : db.finished = false → db.Committed →
    db.writer = db.attempts.foldl (Writer.execute serde backend) .start
  durable : db.finished = true → db.Committed →
    db.writer.transaction.durable = db.writer.transaction.working
  unfinished : db.finished = false → db.finalError = none
  health : db.health = (db.reports serde backend).foldl (Ring.push 64) []

theorem consistent_new : Consistent serde backend new :=
  ⟨rfl, fun _ => ⟨[], by simp, rfl⟩, nofun, fun _ => rfl, fun _ _ => rfl, nofun, fun _ => rfl, rfl⟩

theorem Consistent.add {self : Database} (h : Consistent serde backend self) {command : StorageCommand}
    {next : Database} (hstep : self.step serde backend (.add command) = some next) :
    Consistent serde backend next := by
  simp only [step] at hstep
  split_ifs at hstep with hrefused hsent
  all_goals
    simp only [Bool.or_eq_true, not_or, Bool.not_eq_true] at hrefused
    obtain ⟨hdropped, hshutdown⟩ := hrefused
    obtain rfl := Option.some.inj hstep
  · refine ⟨?_, fun hfinished => ?_, fun hfinished => ?_, h.working, h.running, h.durable,
      h.unfinished, h.health⟩
    · have hexecuted := h.executed
      simp only [sent, attempts] at hexecuted ⊢
      simp [hsent, hshutdown, ← hexecuted]
    · obtain ⟨commands, hcommands, hqueue⟩ := h.pending hfinished
      refine ⟨commands ++ [command], ?_, ?_⟩
      · intro other hother
        rcases List.mem_append.mp hother with hother | hother
        · exact hcommands other hother
        · rw [List.mem_singleton.mp hother]
          exact hshutdown
      · simp [hqueue, hdropped]
    · rw [(h.finished hfinished).1] at hdropped
      cases hdropped
  · refine ⟨?_, h.pending, h.finished, h.working, h.running, h.durable,
      h.unfinished, h.health⟩
    have hexecuted := h.executed
    simp only [sent, attempts] at hexecuted ⊢
    simp [hsent, ← hexecuted]

theorem Consistent.drop {self : Database} (h : Consistent serde backend self) {next : Database}
    (hstep : self.step serde backend .drop = some next) : Consistent serde backend next := by
  simp only [step] at hstep
  split_ifs at hstep with hdropped
  obtain rfl := Option.some.inj hstep
  have hfinished : self.finished = false := by
    by_contra hfinished
    exact hdropped (h.finished (by simpa using hfinished)).1
  refine ⟨?_, fun _ => ?_, fun hnot => ?_, h.working, h.running, h.durable,
      h.unfinished, h.health⟩
  · have hexecuted := h.executed
    simp only [sent, attempts] at hexecuted ⊢
    simpa [isShutdown] using hexecuted
  · obtain ⟨commands, hcommands, hqueue⟩ := h.pending hfinished
    exact ⟨commands, hcommands, by simp [hqueue, hdropped]⟩
  · rw [hfinished] at hnot
    cases hnot

theorem Consistent.execute {self : Database} (h : Consistent serde backend self)
    (hrunning : self.finished = false) {command : StorageCommand} {queue : List StorageCommand}
    (hqueue : self.queue = command :: queue) (hcommand : isShutdown command = false) (fails : Nat → Bool)
    (error : String) (commitError : Option String) (left : Transaction StoredRow) :
    Consistent serde backend
      (self.execute serde backend ⟨command, fails⟩ error commitError left queue) := by
  have hfinal := h.unfinished hrunning
  have hwriter : (self.execute serde backend ⟨command, fails⟩ error commitError left queue).Committed →
      (self.execute serde backend ⟨command, fails⟩ error commitError left queue).writer =
        (self.attempts ++ [(⟨command, fails⟩ : Attempt)]).foldl (Writer.execute serde backend) .start := by
    rintro ⟨hcommits, -⟩
    have hbefore : self.Committed :=
      ⟨fun executed hmem => hcommits executed (List.mem_append_left _ hmem), hfinal⟩
    rw [List.foldl_append, ← h.running hrunning hbefore]
    exact if_pos hcommits
  have hattempts : (self.execute serde backend ⟨command, fails⟩ error commitError left queue).attempts =
      self.attempts ++ [⟨command, fails⟩] := List.map_append
  refine ⟨?_, fun _ => ?_, fun hfinished => ?_, fun hcommits => ?_, fun _ hcommits => ?_,
    fun hfinished => ?_, fun _ => hfinal, ?_⟩
  · have hexecuted := h.executed
    rw [hqueue, List.filter_cons_of_pos (by simp [hcommand])] at hexecuted
    rw [hattempts, List.map_append, List.append_assoc]
    exact hexecuted
  · obtain ⟨commands, hcommands, hpending⟩ := h.pending hrunning
    rw [hqueue] at hpending
    cases commands with
    | nil =>
      -- The next command would be the `Shutdown`.
      rw [List.nil_append] at hpending
      split_ifs at hpending with hdropped
      obtain ⟨rfl, -⟩ := List.cons.inj hpending
      cases hcommand
    | cons first commands =>
      obtain ⟨-, hrest⟩ := List.cons.inj hpending
      exact ⟨commands, fun other hother => hcommands other (by simp [hother]), hrest⟩
  · exact absurd (hrunning.symm.trans hfinished) Bool.false_ne_true
  · rw [hwriter hcommits, hattempts]
  · rw [hwriter hcommits, hattempts]
  · exact absurd (hrunning.symm.trans hfinished) Bool.false_ne_true
  · have hhealth := h.health
    rw [reports, hfinal] at hhealth
    simp only [Option.map_none, Option.toList_none, List.append_nil] at hhealth
    simp [reports, Database.execute, hfinal, hhealth]

theorem Consistent.finish {self : Database} (h : Consistent serde backend self)
    (hrunning : self.finished = false) {queue : List StorageCommand}
    (hqueue : self.queue = .shutdown :: queue) (commitError : Option String)
    (left : Transaction StoredRow) : Consistent serde backend (self.finish backend commitError left queue) := by
  have hfinal := h.unfinished hrunning
  obtain ⟨commands, hcommands, hpending⟩ := h.pending hrunning
  rw [hqueue] at hpending
  obtain ⟨rfl, hdropped, rfl⟩ : commands = [] ∧ self.dropped = true ∧ queue = [] := by
    cases commands with
    | nil =>
      rw [List.nil_append] at hpending
      split_ifs at hpending with hdropped
      exact ⟨rfl, hdropped, (List.cons.inj hpending).2⟩
    | cons first commands =>
      obtain ⟨rfl, -⟩ := List.cons.inj hpending
      exact absurd (hcommands .shutdown (by simp)) (by decide)
  have hwriter : (self.finish backend commitError left []).Committed →
      (self.finish backend commitError left []).writer =
        { self.writer with transaction := self.writer.transaction.commit } :=
    fun hcommits => if_pos hcommits
  refine ⟨?_, nofun, fun _ => ⟨hdropped, rfl⟩, fun hcommits => ?_, nofun, fun _ hcommits => ?_, nofun, ?_⟩
  · have hexecuted := h.executed
    rw [hqueue] at hexecuted
    exact hexecuted
  · rw [hwriter hcommits]
    exact h.working ⟨hcommits.1, hfinal⟩
  · rw [hwriter hcommits]
    rfl
  · have hhealth := h.health
    rw [reports, hfinal] at hhealth
    simp only [Option.map_none, Option.toList_none, List.append_nil] at hhealth
    simp [reports, Database.finish, hhealth]

theorem Consistent.write {self : Database} (h : Consistent serde backend self) {fails : Nat → Bool}
    {error : String} {commitError : Option String} {left : Transaction StoredRow} {next : Database}
    (hstep : self.step serde backend (.write fails error commitError left) = some next) :
    Consistent serde backend next := by
  simp only [step] at hstep
  split_ifs at hstep with hfinished
  rw [Bool.not_eq_true] at hfinished
  split at hstep
  · cases hstep
  · rename_i queue hqueue
    obtain rfl := Option.some.inj hstep
    exact h.finish hfinished hqueue commitError left
  · rename_i command queue hne hqueue
    obtain rfl := Option.some.inj hstep
    have hcommand : isShutdown command = false := by
      cases command with
      | shutdown => exact absurd rfl hne
      | rawEvent | record | envelope | compactEvents | transition => rfl
    exact h.execute hfinished hqueue hcommand fails error commitError left

theorem consistent {self : Database} (h : (machine serde backend).Reachable self) :
    Consistent serde backend self := by
  refine Machine.Reach.invariant ?_ ?_ h
  · rintro _ rfl
    exact consistent_new
  · intro _ action _ _ _ hstep hconsistent
    cases action with
    | add command => exact hconsistent.add hstep
    | drop => exact hconsistent.drop hstep
    | write fails error commitError left => exact hconsistent.write hstep

/-! ### The rows of the database -/

/-- The rows of a command, as they are inserted when it succeeds. -/
def insertedRows (serde : PayloadSerde) (n : Nat) (attempt : Attempt) : List StoredRow :=
  (attempt.statements serde).map fun statement => ⟨n, statement.2, statement.1⟩

theorem change_of_succeeded {attempts : List Attempt} (hok : ∀ attempt ∈ attempts, attempt.Succeeded serde) :
    attempts.mapIdx (Writer.change serde backend) =
      (attempts.mapIdx (insertedRows serde)).map Change.insert := by
  refine List.ext_getElem? fun i => ?_
  rw [List.getElem?_mapIdx, List.getElem?_map, List.getElem?_mapIdx, Option.map_map]
  refine Option.map_congr fun attempt hattempt => ?_
  have hsucceeded := hok attempt (List.mem_of_getElem? hattempt)
  simp [Writer.change, insertedRows, hsucceeded.resultIsOk, hsucceeded.inserted]

theorem rows_insertedRows (attempts : List Attempt) :
    (attempts.mapIdx (insertedRows serde)).map (List.map (·.row)) =
      attempts.map fun attempt => attempt.command.rows serde := by
  refine List.ext_getElem? fun i => ?_
  rw [List.getElem?_map, List.getElem?_mapIdx, List.getElem?_map, Option.map_map]
  congr 1
  funext attempt
  simp [insertedRows, Attempt.statements, List.map_map, Function.comp_def, List.zipIdx_map_fst]

theorem flatMap_sent (commands : List StorageCommand) :
    (commands.filter isSent).flatMap (StorageCommand.rows serde) =
      commands.flatMap (StorageCommand.rows serde) := by
  induction commands with
  | nil => rfl
  | cons command commands ih =>
    by_cases hsent : isSent command = true
    · rw [List.filter_cons_of_pos hsent, List.flatMap_cons, List.flatMap_cons, ih]
    · have hnone : command.rows serde = [] := by
        cases command with
        | compactEvents events => simpa [isSent, StorageCommand.rows] using hsent
        | rawEvent | record | envelope | transition | shutdown => simp [isSent] at hsent
      rw [List.filter_cons_of_neg hsent, List.flatMap_cons, hnone, ih, List.nil_append]

theorem run_succeeded {attempts : List Attempt} (hok : ∀ attempt ∈ attempts, attempt.Succeeded serde) :
    attempts.foldl (Writer.execute serde backend) .start =
      { transaction :=
          { durable := ((attempts.mapIdx (insertedRows serde)).take (attempts.length / 100 * 100)).flatten
            working := (attempts.mapIdx (insertedRows serde)).flatten }
        count := attempts.length } := by
  have hrun := Grouped.run_insert 100 (attempts.mapIdx (insertedRows serde))
  rwa [← change_of_succeeded hok, ← Writer.foldl_execute, List.length_mapIdx] at hrun

theorem all_visible {self : Database} (h : (machine serde backend).Reachable self)
    (hok : self.WithoutFailure serde) (hfinished : self.finished = true) :
    self.visible = self.given.flatMap (StorageCommand.rows serde) := by
  have hconsistent := consistent h
  have hexecuted := hconsistent.executed
  rw [(hconsistent.finished hfinished).2, List.filter_nil, List.append_nil, attempts] at hexecuted
  rw [visible, hconsistent.durable hfinished hok.committed, ← hconsistent.working hok.committed,
    run_succeeded hok.succeeded, List.map_flatten, rows_insertedRows, ← flatMap_sent, ← sent, ← hexecuted,
    List.flatMap_def, List.map_map]
  rfl

theorem hundreds_visible {self : Database} (h : (machine serde backend).Reachable self)
    (hok : self.WithoutFailure serde) (hfinished : self.finished = false) :
    self.attempts.map (·.command) <+: self.sent ∧
      self.visible =
        (self.sent.take (self.attempts.length / 100 * 100)).flatMap (StorageCommand.rows serde) := by
  have hconsistent := consistent h
  have hexecuted := hconsistent.executed
  refine ⟨⟨_, hexecuted⟩, ?_⟩
  have hle : self.attempts.length / 100 * 100 ≤ (self.attempts.map (·.command)).length := by
    rw [List.length_map]
    exact Nat.div_mul_le_self ..
  rw [visible, hconsistent.running hfinished hok.committed, run_succeeded hok.succeeded, ← hexecuted,
    List.take_append_of_le_length hle, List.map_flatten, List.map_take, rows_insertedRows,
    List.flatMap_def, List.map_take, List.map_map]
  rfl

theorem visible_prefix {self : Database} (h : (machine serde backend).Reachable self)
    (hok : self.WithoutFailure serde) :
    ∃ first, first <+: self.given ∧ self.visible = first.flatMap (StorageCommand.rows serde) := by
  cases hfinished : self.finished with
  | true => exact ⟨self.given, List.prefix_rfl, all_visible h hok hfinished⟩
  | false =>
    obtain ⟨first, hfirst, heq⟩ := List.prefix_filter_iff.mp
      (List.take_prefix (self.attempts.length / 100 * 100) self.sent)
    refine ⟨first, hfirst, ?_⟩
    rw [(hundreds_visible h hok hfinished).2, heq, flatMap_sent]

theorem Attempt.resultIsOk_iff (attempt : Attempt) :
    attempt.resultIsOk serde backend = true ↔
      attempt.Succeeded serde ∨ backend = .duckdb ∧ ∃ events, attempt.command = .compactEvents events := by
  unfold Attempt.resultIsOk Attempt.Succeeded
  split
  · rename_i events hcommand
    simp [hcommand]
  · rename_i hne
    simp only [List.all_eq_true, Bool.not_eq_true']
    refine (or_iff_left ?_).symm
    rintro ⟨rfl, events, hcommand⟩
    exact hne events rfl hcommand

theorem reportsOf_eq_nil (executed : Executed) :
    reportsOf serde backend executed = [] ↔
      executed.attempt.resultIsOk serde backend = true ∧ executed.commitError = none := by
  rw [reportsOf, List.append_eq_nil_iff]
  refine and_congr ?_ ?_
  · cases executed.attempt.resultIsOk serde backend <;> simp
  · cases executed.commitError <;> simp

/-- The health list has what the writer reported last, and it is empty if and only if every command that
was executed succeeded, or DuckDB did not look, and so did every `COMMIT`. -/
theorem health_empty_iff {self : Database} (h : (machine serde backend).Reachable self) :
    self.health.reverse = (self.reports serde backend).reverse.take 64 ∧
      (self.health = [] ↔
        (∀ attempt ∈ self.attempts, attempt.Succeeded serde ∨
          backend = .duckdb ∧ ∃ events, attempt.command = .compactEvents events) ∧ self.Committed) ∧
      (backend = .sqlite → self.health = [] → self.finished = true →
        self.visible = self.given.flatMap (StorageCommand.rows serde)) := by
  have hreverse : self.health.reverse = (self.reports serde backend).reverse.take 64 := by
    rw [(consistent h).health, Ring.reverse_foldl_push (by decide) (by simp)]
    simp
  have hempty : self.health = [] ↔
      (∀ attempt ∈ self.attempts, attempt.Succeeded serde ∨
        backend = .duckdb ∧ ∃ events, attempt.command = .compactEvents events) ∧ self.Committed := by
    have hnone : self.health = [] ↔ self.reports serde backend = [] := by
      rw [← List.reverse_eq_nil_iff, hreverse, List.take_eq_nil_iff, List.reverse_eq_nil_iff]
      simp
    have hfinal : (self.finalError.map (finalReport backend)).toList = [] ↔ self.finalError = none := by
      cases self.finalError <;> simp
    rw [hnone, reports, List.append_eq_nil_iff, hfinal, List.flatMap_eq_nil_iff, Committed, ← and_assoc]
    simp only [attempts, List.forall_mem_map, ← Attempt.resultIsOk_iff, reportsOf_eq_nil, ← forall_and]
  refine ⟨hreverse, hempty, ?_⟩
  rintro rfl hhealth hfinished
  obtain ⟨hattempts, hcommitted⟩ := hempty.mp hhealth
  exact all_visible h ⟨fun attempt hattempt => (hattempts attempt hattempt).resolve_right nofun, hcommitted⟩
    hfinished

/-- The disk is full when the second command is written, and at the final `COMMIT`. -/
def fullActions : List DatabaseAction :=
  [.add (.rawEvent (.keyboardInput 0 7 ⟨none, none, []⟩)),
    .add (.rawEvent (.windowFocusChange 1 8 (.sample "Editor" "a" 1))),
    .write (fun _ => false) "" none .start, .write (fun _ => true) "disk full" none .start, .drop,
    .write (fun _ => false) "" (some "disk full") .start]

theorem health_full :
    ∃ db, (machine Writer.blankSerde .sqlite).exec new fullActions = some db ∧
      db.health.reverse = (db.reports Writer.blankSerde .sqlite).reverse.take 64 ∧
      db.health = ["db write error: disk full", "db final commit error: disk full"] := by
  obtain ⟨db, hdb, hhealth⟩ :
      ∃ db, (machine Writer.blankSerde .sqlite).exec new fullActions = some db ∧
        db.health = ["db write error: disk full", "db final commit error: disk full"] := ⟨_, rfl, rfl⟩
  exact ⟨db, hdb, (health_empty_iff (Machine.Reachable.exec (.start rfl) hdb)).1, hhealth⟩

/-! ### A session without a failure -/

theorem reachable_given {commands : List StorageCommand}
    (h : ∀ command ∈ commands, isShutdown command = false) :
    ∃ db, (machine serde backend).Reachable db ∧ db.given = commands ∧ db.queue = commands.filter isSent ∧
      db.log = [] ∧ db.finalError = none ∧ db.dropped = false ∧ db.finished = false := by
  induction commands using List.reverseRecOn with
  | nil => exact ⟨new, .start rfl, rfl, rfl, rfl, rfl, rfl, rfl⟩
  | append_singleton commands command ih =>
    obtain ⟨db, hdb, hgiven, hqueue, hlog, hfinal, hdropped, hfinished⟩ := ih fun c hc => h c (by simp [hc])
    have hcommand := h command (by simp)
    cases hsent : isSent command with
    | true =>
      refine ⟨{ db with given := db.given ++ [command], queue := db.queue ++ [command] },
        .step hdb trivial (a := .add command) ?_, ?_, ?_, hlog, hfinal, hdropped, hfinished⟩
      · simp [machine, step, hdropped, hcommand, hsent]
      · simp [hgiven]
      · simp [hqueue, hsent]
    | false =>
      refine ⟨{ db with given := db.given ++ [command] }, .step hdb trivial (a := .add command) ?_, ?_, ?_,
        hlog, hfinal, hdropped, hfinished⟩
      · simp [machine, step, hdropped, hcommand, hsent]
      · simp [hgiven]
      · simp [hqueue, hsent]

/-- A turn of the writer in which nothing fails. -/
def quietWrite : DatabaseAction := .write (fun _ => false) "" none .start

theorem step_write {db : Database} {command : StorageCommand} {queue : List StorageCommand}
    (hfinished : db.finished = false) (hqueue : db.queue = command :: queue)
    (hcommand : isShutdown command = false) :
    db.step serde backend quietWrite =
      some (db.execute serde backend ⟨command, fun _ => false⟩ "" none .start queue) := by
  rw [quietWrite, step, hfinished, if_neg Bool.false_ne_true, hqueue]
  cases command with
  | shutdown => cases hcommand
  | rawEvent | record | envelope | compactEvents | transition => rfl

theorem step_shutdown {db : Database} {queue : List StorageCommand} (hfinished : db.finished = false)
    (hqueue : db.queue = .shutdown :: queue) :
    db.step serde backend quietWrite = some (db.finish backend none .start queue) := by
  rw [quietWrite, step, hfinished, if_neg Bool.false_ne_true, hqueue]

theorem WithoutFailure.execute {db : Database} (h : db.WithoutFailure serde) (command : StorageCommand)
    (queue : List StorageCommand) :
    (db.execute serde backend ⟨command, fun _ => false⟩ "" none .start queue).WithoutFailure serde := by
  refine ⟨?_, ?_, h.committed.2⟩
  · intro attempt hattempt
    simp only [attempts, Database.execute, List.map_append, List.map_cons, List.map_nil, List.mem_append,
      List.mem_singleton] at hattempt
    rcases hattempt with hattempt | rfl
    · exact h.succeeded attempt hattempt
    · exact fun _ _ => rfl
  · intro executed hexecuted
    rcases List.mem_append.mp hexecuted with hexecuted | hexecuted
    · exact h.committed.1 executed hexecuted
    · rw [List.mem_singleton.mp hexecuted]
      exact ite_self none

theorem reachable_finished {commands : List StorageCommand}
    (h : ∀ command ∈ commands, isShutdown command = false) {db : Database}
    (hdb : (machine serde backend).Reachable db) (hqueue : db.queue = commands ++ [.shutdown])
    (hfinished : db.finished = false) (hok : db.WithoutFailure serde) :
    ∃ last, (machine serde backend).Reachable last ∧ last.given = db.given ∧ last.finished = true ∧
      last.WithoutFailure serde := by
  induction commands generalizing db with
  | nil =>
    have hstep : (machine serde backend).step db quietWrite = _ := step_shutdown hfinished hqueue
    exact ⟨_, .step hdb trivial hstep, rfl, rfl, hok.succeeded, hok.committed.1, rfl⟩
  | cons command commands ih =>
    have hstep : (machine serde backend).step db quietWrite = _ :=
      step_write hfinished hqueue (h command (by simp))
    have hnext := Machine.Reach.step hdb trivial hstep
    obtain ⟨last, hlast, hgiven, hend, hall⟩ :=
      ih (fun c hc => h c (by simp [hc])) hnext rfl hfinished (hok.execute command _)
    exact ⟨last, hlast, hgiven, hend, hall⟩

theorem exists_written (serde : PayloadSerde) (backend : Backend) {commands : List StorageCommand}
    (h : ∀ command ∈ commands, isShutdown command = false) :
    ∃ db, (machine serde backend).Reachable db ∧ db.given = commands ∧ db.finished = true ∧
      db.WithoutFailure serde := by
  obtain ⟨db, hdb, hgiven, hqueue, hlog, hfinal, hdropped, hfinished⟩ : ∃ db, (machine serde backend).Reachable db ∧ _ :=
    reachable_given h
  have hdrop : (machine serde backend).step db .drop =
      some { db with queue := db.queue ++ [.shutdown], dropped := true } := by
    simp [machine, step, hdropped]
  obtain ⟨last, hlast, hsame, hend, hok⟩ := reachable_finished
    (fun c hc => h c (List.mem_filter.mp hc).1) (.step hdb trivial hdrop) (by rw [hqueue]) hfinished
    ⟨by simp [attempts, hlog], by simp [hlog], hfinal⟩
  exact ⟨last, hlast, hsame.trans hgiven, hend, hok⟩

end Database

end Kronical
