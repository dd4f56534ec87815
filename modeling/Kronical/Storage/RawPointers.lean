import Kronical.Pipeline.Coverage
import Kronical.Pipeline.NothingLost
import Kronical.Pipeline.Suppression
import Kronical.Storage.Backend
import Kronical.Storage.Rows

/-!
# Pointers to raw events

A compact event points to raw events by their event ids, and the table it names has an `id` column. But
no writer fills that column: SQLite numbers the rows itself and DuckDB leaves them without an id. So a
pointer finds its event only where an event's id happens to be the number of its row
(`no_dangling_iff`).
-/

namespace Kronical

open Network

/-! ### The two tables -/

/-- The rows of `raw_events`, each with its `id` column, and those of `compact_events`. -/
structure Tables where
  rawEvents : List (Option Int × RawEventRow)
  compactEvents : List CompactRow
  deriving DecidableEq, Repr

/-- The `id` of a row that is inserted without one: the next row id in SQLite, `NULL` in DuckDB. -/
def Backend.nextId (ids : List (Option Int)) : Backend → Option Int
  | .duckdb => none
  | .sqlite => some ((ids.filterMap id).foldl max 0 + 1)

namespace Tables

def insert (backend : Backend) (self : Tables) : Row → Tables
  | .rawEvent row =>
    { self with
      rawEvents := self.rawEvents ++ [(backend.nextId (self.rawEvents.map (·.1)), row)] }
  | .compactEvent row => { self with compactEvents := self.compactEvents ++ [row] }
  | .record _ | .envelope _ | .transition _ => self

/-- The tables of a new database after these commands. -/
def written (serde : PayloadSerde) (backend : Backend) (cmds : List StorageCommand) : Tables :=
  (cmds.flatMap (·.rows serde)).foldl (insert backend) ⟨[], []⟩

/-- Each id in a pointer to `raw_events` is the `id` of exactly one row there, and this row holds the
raw event with that id. -/
def NoDangling (self : Tables) : Prop :=
  ∀ compact ∈ self.compactEvents, ∀ ids, compact.rawEventRef = some ⟨defaultRawEventTable, ids⟩ →
    ∀ id ∈ ids, ∃ row, (self.rawEvents.filter fun row => row.1 = some (id : Int)) = [row] ∧
      row.2.data.eventId = id

end Tables

/-- The row a raw event is stored as. -/
def storedRow (event : RawEvent) : RawEventRow :=
  { timestamp := event.timestamp, eventType := event.eventType, data := event }

/-- The compact events a storage command stores. -/
def compactEventsOf : StorageCommand → List CompactEvent
  | .compactEvents events => events
  | _ => []

/-- The `id` of the `n`th row. -/
def Backend.rowId (n : Nat) : Backend → Option Int
  | .duckdb => none
  | .sqlite => some n

/-- The raw events as rows, numbered from 1. -/
def numbered (backend : Backend) (events : List RawEvent) : List (Option Int × RawEventRow) :=
  (events.zipIdx 1).map fun event => (backend.rowId event.2, storedRow event.1)

theorem numbered_concat (backend : Backend) (events : List RawEvent) (event : RawEvent) :
    numbered backend (events ++ [event]) =
      numbered backend events ++ [(backend.rowId (events.length + 1), storedRow event)] := by
  rw [numbered, List.zipIdx_append, List.map_append, Nat.add_comm events.length 1]
  rfl

theorem nextId_numbered (backend : Backend) (events : List RawEvent) :
    backend.nextId ((numbered backend events).map (·.1)) = backend.rowId (events.length + 1) := by
  cases backend with
  | duckdb => rfl
  | sqlite =>
    have hmax : (((numbered .sqlite events).map (·.1)).filterMap id).foldl max 0 =
        (events.length : Int) := by
      induction events using List.reverseRecOn with
      | nil => rfl
      | append_singleton events event ih =>
        rw [numbered_concat, List.map_append, List.filterMap_append, List.foldl_append, ih,
          List.length_append, List.length_singleton]
        show max (events.length : Int) ((events.length + 1 : Nat) : Int) = _
        omega
    rw [Backend.nextId, hmax, Backend.rowId]
    push_cast
    rfl

namespace Tables

theorem foldl_insert_compact (backend : Backend) (events : List CompactEvent) (self : Tables) :
    (events.map fun event => Row.compactEvent (compactRow event)).foldl (insert backend) self =
      { self with compactEvents := self.compactEvents ++ events.map compactRow } := by
  induction events generalizing self with
  | nil => simp
  | cons event events ih =>
    rw [List.map_cons, List.foldl_cons, ih, insert, List.map_cons]
    simp

theorem foldl_insert_rows (serde : PayloadSerde) (backend : Backend) (cmd : StorageCommand)
    (events : List RawEvent) (compacts : List CompactRow) :
    (cmd.rows serde).foldl (insert backend) ⟨numbered backend events, compacts⟩ =
      ⟨numbered backend (events ++ (asRawEvent cmd).toList),
        compacts ++ (compactEventsOf cmd).map compactRow⟩ := by
  have hsame : (⟨numbered backend events, compacts⟩ : Tables) =
      ⟨numbered backend (events ++ []), compacts ++ []⟩ := by
    rw [List.append_nil, List.append_nil]
  cases cmd with
  | rawEvent event =>
    show (⟨numbered backend events ++ [(backend.nextId ((numbered backend events).map (·.1)),
      storedRow event)], compacts⟩ : Tables) = ⟨numbered backend (events ++ [event]), compacts ++ []⟩
    rw [nextId_numbered, numbered_concat, List.append_nil]
  | compactEvents compact =>
    rw [StorageCommand.rows, foldl_insert_compact]
    show _ = (⟨numbered backend (events ++ []), _⟩ : Tables)
    rw [List.append_nil]
    rfl
  | record => exact hsame
  | envelope => exact hsame
  | transition => exact hsame
  | shutdown => exact hsame

theorem written_eq (serde : PayloadSerde) (backend : Backend) (cmds : List StorageCommand) :
    written serde backend cmds =
      ⟨numbered backend (cmds.filterMap asRawEvent), (cmds.flatMap compactEventsOf).map compactRow⟩ := by
  induction cmds using List.reverseRecOn with
  | nil => rfl
  | append_singleton cmds cmd ih =>
    have hstep : written serde backend (cmds ++ [cmd]) =
        (cmd.rows serde).foldl (insert backend) (written serde backend cmds) := by
      rw [written, List.flatMap_append, List.foldl_append, List.flatMap_singleton]
      rfl
    have hraw : [cmd].filterMap asRawEvent = (asRawEvent cmd).toList := by
      cases cmd <;> rfl
    rw [hstep, ih, foldl_insert_rows, List.filterMap_append, hraw, List.flatMap_append,
      List.flatMap_singleton, List.map_append]

theorem filter_zipIdx {α : Type} (xs : List α) (k n : Nat) :
    ((xs.zipIdx k).filter fun x => x.2 = n) =
      if k ≤ n then (xs[n - k]?.map fun x => (x, n)).toList else [] := by
  induction xs generalizing k with
  | nil => simp
  | cons x xs ih =>
    rw [List.zipIdx_cons]
    by_cases hk : k = n
    · subst hk
      rw [List.filter_cons_of_pos (by simp), ih, if_neg (by omega), if_pos le_rfl, Nat.sub_self]
      rfl
    · rw [List.filter_cons_of_neg (by simpa using hk), ih]
      by_cases hle : k ≤ n
      · have hsub : n - k = n - (k + 1) + 1 := by omega
        rw [if_pos hle, if_pos (by omega), hsub, List.getElem?_cons_succ]
      · rw [if_neg hle, if_neg (by omega)]

theorem found_iff (backend : Backend) (events : List RawEvent) (id : Nat) :
    (∃ row, ((numbered backend events).filter fun row => row.1 = some (id : Int)) = [row] ∧
        row.2.data.eventId = id) ↔
      backend = .sqlite ∧ 0 < id ∧ (events[id - 1]?).map (·.eventId) = some id := by
  cases backend with
  | duckdb =>
    have hnone : ((numbered .duckdb events).filter fun row => row.1 = some (id : Int)) = [] := by
      refine List.filter_eq_nil_iff.mpr fun row hrow => ?_
      obtain ⟨event, -, rfl⟩ := List.mem_map.mp hrow
      simp [Backend.rowId]
    simp [hnone]
  | sqlite =>
    have hrows : ((numbered .sqlite events).filter fun row => row.1 = some (id : Int)) =
        ((events.zipIdx 1).filter fun event => event.2 = id).map fun event =>
          (Backend.sqlite.rowId event.2, storedRow event.1) := by
      rw [numbered, List.filter_map]
      congr 1
      refine List.filter_congr fun event _ => ?_
      simp [Backend.rowId]
    rw [hrows, filter_zipIdx]
    by_cases hid : 1 ≤ id
    · rw [if_pos hid]
      cases events[id - 1]? with
      | none => simp
      | some event => simp [storedRow, Nat.pos_of_ne_zero (Nat.ne_of_gt hid)]
    · rw [if_neg hid]
      simp
      omega

end Tables

/-! ### What a run writes -/

theorem process_unsuppressed {cfg : PipelineConfig}
    {s : Network.Config Stage.Msg Stage.Reading Stage.Local} (hs : (pipeline cfg).Reachable s)
    {batch : RawBatch} {envelopes : List EventEnvelope}
    (hmem : some (.process batch envelopes) ∈ (s .compression).inputs.map (·.2)) :
    suppress envelopes = [] := by
  have harrived : ∃ p, (p, CompressionCommand.process batch envelopes) ∈ (s .compression).arrived := by
    obtain ⟨input, hinput, hcmd⟩ := List.mem_map.mp hmem
    obtain ⟨taken, htaken, rfl⟩ := List.mem_map.mp hinput
    obtain ⟨⟨p, cmd⟩, hmsg, rfl⟩ := Option.map_eq_some_iff.mp hcmd
    exact ⟨p, List.mem_append_left _ (List.mem_filterMap.mpr ⟨taken, htaken, hmsg⟩)⟩
  obtain ⟨p, hp⟩ := harrived
  obtain rfl : p = .envelope := List.mem_singleton.mp (heard_from hs hp)
  obtain ⟨-, hanswers⟩ := hs.answers_within .envelope (I := EnvelopeStage.LockCoherent)
    (EnvelopeStage.lockCoherent_new ..)
    (by
      intro state _ cmd hstate
      show (EnvelopeStage.handle state cmd).1.LockCoherent
      rw [EnvelopeStage.handle_eq]
      exact (hstate.derived cmd).1)
    (by
      intro state packet rest hstate
      show (EnvelopeStage.refuse state packet rest).1.LockCoherent
      unfold EnvelopeStage.refuse
      split
      · exact hstate
      · exact hstate
      · exact ⟨hstate.agree, hstate.engine, hstate.coherent⟩
      · exact ⟨hstate.agree, hstate.engine, hstate.coherent⟩
      · exact hstate)
  obtain ⟨state, _, cmd, hstate, hout⟩ :=
    hanswers _ (List.mem_append_left _ (hs.sent_of_arrived hp))
  have hsent : CompressionCommand.process batch envelopes ∈
      sentTo .compression (EnvelopeStage.handle state cmd).2 :=
    List.mem_filterMap.mpr ⟨_, hout, Packet.to_self ..⟩
  rw [EnvelopeStage.handle_compression] at hsent
  match cmd, hsent with
  | some (.batch b), hsent =>
    rw [EnvelopeStage.toCompression] at hsent
    split_ifs at hsent with hempty
    · cases hsent
    · cases List.mem_singleton.mp hsent
      obtain ⟨-, hword, -⟩ := hstate.derived (some (.batch batch))
      exact suppress_lockWord hword
  | some .shutdown, hsent => cases List.mem_singleton.mp hsent

/-- The batch of a command. -/
def batchOf : Option CompressionCommand → Option RawBatch
  | some (.process batch _) => some batch
  | _ => none

namespace CompressionStage

theorem forwardRawEvents_compact (envelopes : List EventEnvelope) (events : List RawEvent) :
    (sentTo .storage (forwardRawEvents envelopes events)).flatMap compactEventsOf = [] := by
  rw [List.flatMap_eq_nil_iff]
  intro cmd hcmd
  obtain ⟨packet, hpacket, hto⟩ := List.mem_filterMap.mp hcmd
  obtain ⟨event, -, rfl⟩ := List.mem_map.mp hpacket
  rw [Packet.to_self] at hto
  rw [← Option.some.inj hto]
  rfl

theorem forwardCompactEvents_compact (compactEvents : List CompactEvent) :
    (sentTo .storage (forwardCompactEvents compactEvents)).flatMap compactEventsOf = compactEvents := by
  unfold forwardCompactEvents
  by_cases hempty : compactEvents.isEmpty
  · rw [if_pos hempty, List.isEmpty_iff.mp hempty]
    rfl
  · rw [if_neg hempty, sentTo_cons_self, List.flatMap_cons]
    exact List.append_nil _

theorem handle_written {self : CompressionStage} (hpersist : self.persistRawEvents = true)
    (hmouse : self.engine.mouseCompressor = .new) {cmd : Option CompressionCommand}
    (h : ∀ batch envelopes, cmd = some (.process batch envelopes) → suppress envelopes = []) :
    (sentTo .storage (self.handle cmd).2).filterMap asRawEvent =
        (batchOf cmd).toList.flatMap (·.events) ∧
      Linked (((sentTo .storage (self.handle cmd).2).flatMap compactEventsOf).map (·.rawEventIds))
        ((batchOf cmd).toList.flatMap fun batch => coveredIds batch.events) ∧
      (self.handle cmd).1.persistRawEvents = true ∧
      (self.handle cmd).1.engine.mouseCompressor = .new := by
  match cmd, h with
  | some (.process batch envelopes), h =>
    have hevents := handle_events hpersist batch (h batch envelopes rfl)
    show _ = batch.events ++ [] ∧ Linked _ (coveredIds batch.events ++ []) ∧ _
    rw [List.append_nil, List.append_nil]
    refine ⟨hevents.1, ?_, hevents.2, ?_⟩
    · unfold handle
      dsimp only
      by_cases hempty : batch.isEmpty
      · rw [if_pos hempty, show batch.events = [] from List.isEmpty_iff.mp hempty]
        exact linked_nil
      · rw [if_neg hempty, if_pos hpersist, sentTo_append, List.flatMap_append,
          forwardRawEvents_compact, forwardCompactEvents_compact, List.nil_append]
        exact CompressionEngine.compressEvents_links hmouse batch.events
    · unfold handle
      dsimp only
      by_cases hempty : batch.isEmpty
      · rw [if_pos hempty]
        exact hmouse
      · rw [if_neg hempty, ← hmouse]
        unfold CompressionEngine.compressEvents
        split_ifs <;> rfl
  | some .shutdown, _ => exact ⟨rfl, linked_nil, hpersist, hmouse⟩
  | none, _ => exact ⟨rfl, linked_nil, hpersist, hmouse⟩

theorem run_written {self : CompressionStage} (hpersist : self.persistRawEvents = true)
    (hmouse : self.engine.mouseCompressor = .new) {cmds : List (Option CompressionCommand)}
    (h : ∀ batch envelopes, some (.process batch envelopes) ∈ cmds → suppress envelopes = []) :
    (sentTo .storage (loop.run self cmds).2).filterMap asRawEvent =
        (cmds.filterMap batchOf).flatMap (·.events) ∧
      Linked (((sentTo .storage (loop.run self cmds).2).flatMap compactEventsOf).map (·.rawEventIds))
        ((cmds.filterMap batchOf).flatMap fun batch => coveredIds batch.events) := by
  induction cmds generalizing self with
  | nil => exact ⟨rfl, linked_nil⟩
  | cons cmd cmds ih =>
    have hone : ∀ batch envelopes, cmd = some (.process batch envelopes) → suppress envelopes = [] :=
      fun batch envelopes hcmd => h batch envelopes (hcmd ▸ List.mem_cons_self)
    obtain ⟨hraw, hlinks, hpersist', hmouse'⟩ := handle_written hpersist hmouse hone
    obtain ⟨hraws, hlinkss⟩ := ih hpersist' hmouse'
      fun batch envelopes hmem => h batch envelopes (List.mem_cons_of_mem _ hmem)
    have hbatches : (cmd :: cmds).filterMap batchOf = (batchOf cmd).toList ++ cmds.filterMap batchOf := by
      rw [List.filterMap_cons]
      cases batchOf cmd <;> rfl
    rw [Transducer.run_cons_snd, sentTo_append, List.filterMap_append, List.flatMap_append,
      List.map_append, hbatches, List.flatMap_append, List.flatMap_append, ← hraws]
    exact ⟨congrArg (· ++ _) hraw, hlinks.append hlinkss⟩

end CompressionStage

/-- The commands that only the compression stage sends to storage. -/
def fromCompression : StorageCommand → Bool
  | .rawEvent _ | .compactEvents _ => true
  | .record _ | .envelope _ | .transition _ | .shutdown => false

/-- A run of the daemon with raw events persisted, at a moment when the database has been handed all
that the compression stage makes of the commands `answered`, so of whole batches. -/
structure DaemonRun where
  cfg : PipelineConfig
  persists : cfg.persistRawEvents = true
  state : Network.Config Stage.Msg Stage.Reading Stage.Local
  reachable : (pipeline cfg).Reachable state
  answered : List (Option CompressionCommand)
  taken : answered <+: (state .compression).inputs.map (·.2)
  written : (state .storage).current.stored.filter fromCompression =
    sentTo .storage (CompressionStage.loop.run
      (.new cfg.focusInternerMaxStrings cfg.persistRawEvents) answered).2

namespace DaemonRun

/-- The batches written. -/
def batches (self : DaemonRun) : List RawBatch := self.answered.filterMap batchOf

/-- The raw events of these batches, in order. -/
def rawEvents (self : DaemonRun) : List RawEvent := self.batches.flatMap (·.events)

/-- The raw events that compact events stand for. -/
def covered (self : DaemonRun) : List Nat := self.batches.flatMap fun batch => coveredIds batch.events

/-- What the run has handed to the database. -/
def stored (self : DaemonRun) : List StorageCommand := (self.state .storage).current.stored

theorem stored_spec (self : DaemonRun) :
    self.stored.filterMap asRawEvent = self.rawEvents ∧
      Linked ((self.stored.flatMap compactEventsOf).map (·.rawEventIds)) self.covered := by
  have hpersist : (CompressionStage.new self.cfg.focusInternerMaxStrings
      self.cfg.persistRawEvents).persistRawEvents = true := self.persists
  have hunsuppressed : ∀ batch envelopes, some (.process batch envelopes) ∈ self.answered →
      suppress envelopes = [] :=
    fun batch envelopes hmem => process_unsuppressed self.reachable (self.taken.subset hmem)
  obtain ⟨hraw, hlinks⟩ := CompressionStage.run_written hpersist rfl hunsuppressed
  rw [← self.written] at hraw hlinks
  have hrawOf : (self.stored.filter fromCompression).filterMap asRawEvent =
      self.stored.filterMap asRawEvent := by
    rw [List.filterMap_filter]
    refine List.filterMap_congr fun cmd _ => ?_
    cases cmd <;> rfl
  have hcompactOf : (self.stored.filter fromCompression).flatMap compactEventsOf =
      self.stored.flatMap compactEventsOf := by
    induction self.stored with
    | nil => rfl
    | cons cmd cmds ih =>
      by_cases hfrom : fromCompression cmd = true
      · rw [List.filter_cons_of_pos hfrom, List.flatMap_cons, List.flatMap_cons, ih]
      · have hnone : compactEventsOf cmd = [] := by
          cases cmd with
          | compactEvents => exact absurd rfl hfrom
          | rawEvent | record | envelope | transition | shutdown => rfl
        rw [List.filter_cons_of_neg hfrom, List.flatMap_cons, hnone, List.nil_append, ih]
  exact ⟨hrawOf ▸ hraw, hcompactOf ▸ hlinks⟩

/-- The database after these runs, one after the other. -/
def database (serde : PayloadSerde) (backend : Backend) (runs : List DaemonRun) : Tables :=
  .written serde backend (runs.flatMap (·.stored))

theorem database_spec (serde : PayloadSerde) (backend : Backend) (runs : List DaemonRun) :
    (database serde backend runs).rawEvents = numbered backend (runs.flatMap (·.rawEvents)) ∧
      Linked ((database serde backend runs).compactEvents.map (·.rawEventRef))
        (runs.flatMap (·.covered)) := by
  have hrow : ∀ event : CompactEvent, (compactRow event).rawEventRef = event.rawEventIds := by
    intro event
    cases event <;> rfl
  rw [database, Tables.written_eq, List.map_map]
  have hall : (runs.flatMap (·.stored)).filterMap asRawEvent = runs.flatMap (·.rawEvents) ∧
      Linked (((runs.flatMap (·.stored)).flatMap compactEventsOf).map
        fun event => (compactRow event).rawEventRef) (runs.flatMap (·.covered)) := by
    induction runs with
    | nil => exact ⟨rfl, linked_nil⟩
    | cons run runs ih =>
      obtain ⟨hraw, hlinks⟩ := run.stored_spec
      rw [List.flatMap_cons, List.filterMap_append, List.flatMap_append, List.map_append,
        List.flatMap_cons, List.flatMap_cons, hraw, ih.1]
      refine ⟨rfl, .append ?_ ih.2⟩
      rw [List.map_congr_left fun event _ => hrow event]
      exact hlinks
  exact ⟨congrArg (numbered backend) hall.1, hall.2⟩

theorem database_noDangling_iff (serde : PayloadSerde) (backend : Backend) (runs : List DaemonRun) :
    (database serde backend runs).NoDangling ↔ ∀ id : Nat, id ∈ runs.flatMap (·.covered) →
      ∃ row, ((numbered backend (runs.flatMap (·.rawEvents))).filter
        fun row => row.1 = some (id : Int)) = [row] ∧ row.2.data.eventId = id := by
  obtain ⟨hraw, hlinks⟩ := database_spec serde backend runs
  unfold Tables.NoDangling
  rw [hraw]
  constructor
  · intro h id hid
    obtain ⟨ids, hlink, hmem⟩ := (hlinks.mem_iff id).mpr hid
    obtain ⟨compact, hcompact, href⟩ := List.mem_map.mp hlink
    exact h compact hcompact ids href id hmem
  · intro h compact hcompact ids href id hmem
    refine h id ((hlinks.mem_iff id).mp ⟨ids, ?_, hmem⟩)
    exact List.mem_map.mpr ⟨compact, hcompact, href⟩

/-- For every sequence of runs and either backend: no pointer to a raw event dangles if and only if the
backend is SQLite and every event that a compact event covers has the number of its row for its id. -/
theorem no_dangling_iff (serde : PayloadSerde) (backend : Backend) (runs : List DaemonRun) :
    (database serde backend runs).NoDangling ↔
      ∀ id ∈ runs.flatMap (·.covered), backend = .sqlite ∧ 0 < id ∧
        ((runs.flatMap (·.rawEvents))[id - 1]?).map (·.eventId) = some id := by
  rw [database_noDangling_iff]
  exact forall₂_congr fun id _ => Tables.found_iff backend _ id

/-- One focus change, stored with its compact event. -/
def focusSchedule : List (Action Stage.Reading) :=
  [.recv .ingest (.event (.windowFocusChange (.sample "Editor" "a" 1)) 5000000000 [] 5000000000 0),
    .send .ingest, .recv .ingest (.ticker 1 5000000000 0), .send .ingest, .send .ingest,
    .recv .envelope (), .recv .envelope (), .send .envelope, .send .envelope, .send .envelope,
    .send .envelope, .send .envelope, .send .envelope, .recv .compression (), .send .compression,
    .send .compression, .recv .storage (), .recv .storage (), .recv .storage (), .recv .storage ()]

/-- The pointer of its compact event dangles with both backends. -/
theorem focus_pointer_dangles :
    ∃ run : DaemonRun, run.cfg = plainConfig ∧
      (pipeline plainConfig).exec (pipeline plainConfig).start focusSchedule = some run.state ∧
      ∀ serde backend, ¬ (database serde backend [run]).NoDangling := by
  obtain ⟨s, hs⟩ := Option.isSome_iff_exists.mp (show ((pipeline plainConfig).exec
    (pipeline plainConfig).start focusSchedule).isSome = true by decide)
  have hcheck : (((pipeline plainConfig).exec (pipeline plainConfig).start focusSchedule).map fun s =>
      (decide ((s .storage).current.stored.filter fromCompression =
        sentTo .storage (CompressionStage.loop.run (.new plainConfig.focusInternerMaxStrings
          plainConfig.persistRawEvents) ((s .compression).inputs.map (·.2))).2),
        (((s .compression).inputs.map (·.2)).filterMap batchOf).flatMap (coveredIds ·.events),
        ((((s .compression).inputs.map (·.2)).filterMap batchOf).flatMap (·.events)).length)) =
          some (true, [20480000], 1) := by decide
  rw [hs] at hcheck
  obtain ⟨hwritten, hcheck⟩ := Prod.mk.inj (Option.some.inj hcheck)
  obtain ⟨hcovered, hlength⟩ := Prod.mk.inj hcheck
  let run : DaemonRun :=
    { cfg := plainConfig, persists := rfl, state := s, reachable := Reachable.exec .start hs,
      answered := (s .compression).inputs.map (·.2), taken := List.prefix_rfl,
      written := of_decide_eq_true hwritten }
  refine ⟨run, rfl, hs, fun serde backend h => ?_⟩
  rw [database_noDangling_iff] at h
  have hmem : 20480000 ∈ [run].flatMap (·.covered) := by
    rw [List.flatMap_singleton, covered, batches, hcovered]
    exact List.mem_singleton_self _
  obtain ⟨-, -, hfound⟩ := (Tables.found_iff backend _ 20480000).mp (h 20480000 hmem)
  have hnone : ([run].flatMap (·.rawEvents)).length ≤ 20480000 - 1 := by
    rw [List.flatMap_singleton, rawEvents, batches, hlength]
    omega
  rw [List.getElem?_eq_none hnone] at hfound
  cases hfound

end DaemonRun

end Kronical
