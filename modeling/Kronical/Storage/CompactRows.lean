import Kronical.Lib.Supported
import Kronical.Pipeline.Reached
import Kronical.Storage.RawPointers
import Kronical.Storage.SessionRows

/-!
# Compact rows and the raw rows under them

The compression stage sends the raw events of a batch ahead of the compact events that point to them, and
no raw event of a batch is held back. The channels keep this order, and so does the writer, which commits
its commands in order. So whenever the database, new at first, is read, be it after a crash or after
a shutdown that has cut the compression stage off, the raw events of each compact row are there
(`compact_rows_backed`).
-/

namespace Kronical

open Network

/-! ### What a compact event needs -/

/-- A compact event points to earlier raw events, or, if raw events are not persisted, to nothing. -/
def Backed (persistRawEvents : Bool) (past : List StorageCommand) : StorageCommand → Prop
  | .rawEvent _ => persistRawEvents = true
  | .compactEvents events =>
    ∀ event ∈ events,
      if persistRawEvents then
        ∃ ids, event.rawEventIds = some ⟨defaultRawEventTable, ids⟩ ∧
          ∀ id ∈ ids, ∃ raw ∈ past.filterMap asRawEvent, raw.eventId = id
      else event.rawEventIds = none
  | .record _ | .envelope _ | .transition _ | .shutdown => True

theorem Backed.mono {persistRawEvents : Bool} {past past' : List StorageCommand} (h : past ⊆ past')
    {command : StorageCommand} (hbacked : Backed persistRawEvents past command) :
    Backed persistRawEvents past' command := by
  cases command with
  | compactEvents events =>
    intro event hevent
    have hneeds := hbacked event hevent
    cases persistRawEvents with
    | false => exact hneeds
    | true =>
      obtain ⟨ids, hlink, hids⟩ := hneeds
      refine ⟨ids, hlink, fun id hid => ?_⟩
      obtain ⟨raw, hraw, heq⟩ := hids id hid
      exact ⟨raw, List.filterMap_subset asRawEvent h hraw, heq⟩
  | rawEvent => exact hbacked
  | record | envelope | transition | shutdown => trivial

theorem Linked.of_mem {links : List (Option RawEventPointer)} {ids : List Nat} (h : Linked links ids)
    {link : Option RawEventPointer} (hlink : link ∈ links) :
    ∃ group, link = some ⟨defaultRawEventTable, group⟩ ∧ ∀ id ∈ group, id ∈ ids := by
  obtain ⟨groups, rfl, hids⟩ := h
  obtain ⟨group, hgroup, rfl⟩ := List.mem_map.mp hlink
  exact ⟨group, rfl, fun id hid => hids.mem_iff.mp (List.mem_flatten.mpr ⟨group, hgroup, hid⟩)⟩

theorem exists_of_mem_idsOf {kind : CompactKind} {events : List RawEvent} {id : Nat}
    (h : id ∈ idsOf kind events) : ∃ raw ∈ events, raw.eventId = id := by
  obtain ⟨raw, hraw, rfl⟩ := List.mem_map.mp h
  exact ⟨raw, List.mem_of_mem_filter hraw, rfl⟩

theorem exists_of_mem_coveredIds {events : List RawEvent} {id : Nat} (h : id ∈ coveredIds events) :
    ∃ raw ∈ events, raw.eventId = id := by
  rw [coveredIds, extractScrollEvents_ids, extractKeyboardEvents_ids, focusIds_eq] at h
  simp only [List.mem_append] at h
  rcases h with ((hscroll | hmouse) | hkeyboard) | hfocus
  · split_ifs at hscroll
    · exact exists_of_mem_idsOf hscroll
    · cases hscroll
  · obtain ⟨e, he, rfl⟩ := List.mem_map.mp hmouse
    obtain ⟨path, hpath, hmem⟩ := List.mem_flatten.mp he
    have hextracted : e ∈ MouseTrajectoryCompressor.extractMouseEvents events := by
      rw [← List.flatten_splitBy MouseTrajectoryCompressor.new.joined
        (MouseTrajectoryCompressor.extractMouseEvents events)]
      exact List.mem_flatten.mpr ⟨path, List.mem_of_mem_filter hpath, hmem⟩
    obtain ⟨raw, hraw, hsome⟩ := List.mem_filterMap.mp hextracted
    refine ⟨raw, hraw, ?_⟩
    split at hsome
    · split at hsome <;> cases hsome <;> rfl
    · cases hsome
  · exact exists_of_mem_idsOf hkeyboard
  · exact exists_of_mem_idsOf hfocus

/-! ### The compression stage -/

namespace CompressionStage

theorem handle_keeps (self : CompressionStage) (cmd : Option CompressionCommand) :
    (self.handle cmd).1.persistRawEvents = self.persistRawEvents ∧
      (self.handle cmd).1.engine.mouseCompressor = self.engine.mouseCompressor := by
  unfold handle CompressionEngine.compressEvents
  split
  · dsimp only
    split_ifs <;> exact ⟨rfl, rfl⟩
  · exact ⟨rfl, rfl⟩
  · exact ⟨rfl, rfl⟩

theorem rawEventIds_clear {events : List CompactEvent} {event : CompactEvent}
    (h : event ∈ clearRawEventRefs events) : event.rawEventIds = none := by
  obtain ⟨original, -, rfl⟩ := List.mem_map.mp h
  cases original <;> rfl

theorem sentTo_forwardCompactEvents (persistRawEvents : Bool) (past : List StorageCommand)
    {events : List CompactEvent} (h : Backed persistRawEvents past (.compactEvents events)) :
    SupportedAfter (Backed persistRawEvents) past (sentTo .storage (forwardCompactEvents events)) := by
  unfold forwardCompactEvents
  split_ifs
  · trivial
  · exact ⟨h, trivial⟩

theorem handle_backed {self : CompressionStage} (hmouse : self.engine.mouseCompressor = .new)
    {cmd : Option CompressionCommand}
    (h : ∀ batch envelopes, cmd = some (.process batch envelopes) → suppress envelopes = [])
    (past : List StorageCommand) :
    SupportedAfter (Backed self.persistRawEvents) past (sentTo .storage (self.handle cmd).2) := by
  match cmd, h with
  | some (.process batch envelopes), h =>
    unfold handle
    dsimp only
    split_ifs with hempty hpersist
    · trivial
    · rw [hpersist, sentTo_append]
      have hraws := forwardRawEvents_events (h batch envelopes rfl) batch.events
      rw [CompressionEngine.compressEvents_raw]
      refine .append (.of_forall fun past command hcommand => ?_)
        (sentTo_forwardCompactEvents true _ fun event hevent => ?_)
      · obtain ⟨packet, hpacket, hto⟩ := List.mem_filterMap.mp hcommand
        obtain ⟨event, -, rfl⟩ := List.mem_map.mp hpacket
        obtain rfl : StorageCommand.rawEvent event = command := Option.some.inj ((Packet.to_self ..).symm.trans hto)
        rfl
      · obtain ⟨ids, hlink, hids⟩ := (CompressionEngine.compressEvents_links hmouse batch.events).of_mem
          (List.mem_map_of_mem hevent)
        refine ⟨ids, hlink, fun id hid => ?_⟩
        obtain ⟨raw, hraw, heq⟩ := exists_of_mem_coveredIds (hids id hid)
        rw [List.filterMap_append, hraws]
        exact ⟨raw, List.mem_append_right _ hraw, heq⟩
    · rw [Bool.eq_false_of_not_eq_true hpersist]
      exact sentTo_forwardCompactEvents false _ fun event hevent => rawEventIds_clear hevent
  | some .shutdown, _ => trivial
  | none, _ => trivial

end CompressionStage

/-! ### What the storage stage hands over -/

section Run

variable {cfg : PipelineConfig}
  {s : Network.Config Stage.Msg Stage.Reading Stage.Local}

theorem compression_backed (hs : (pipeline cfg).Reachable s) :
    SupportedAfter (Backed cfg.persistRawEvents) [] ((s .compression).sentTo .storage) := by
  have honly : ∀ k, Stage.compression ∈ (pipeline cfg).senders k → k = .storage := by
    intro k hk
    have hsender : Stage.compression ∈ k.senders := hk
    revert hsender
    clear hk
    cases k <;> decide
  obtain ⟨inputs, hinputs, hsent⟩ := hs.sent_prefix honly
  refine SupportedAfter.of_initial ?_ (show sentTo .storage _ <+: sentTo .storage _ from hsent.filterMap _)
  refine SupportedAfter.transducer (sentTo .storage) (sentTo_append _) rfl
    (I := fun stage : CompressionStage => stage.persistRawEvents = cfg.persistRawEvents ∧
      stage.engine.mouseCompressor = .new) ?_ ⟨rfl, rfl⟩
  rintro stage ⟨hpersist, hmouse⟩ input hinput
  have hunsuppressed : ∀ batch envelopes, input.2 = some (.process batch envelopes) →
      suppress envelopes = [] := fun batch envelopes heq =>
    process_unsuppressed hs (List.mem_map.mpr ⟨input, hinputs.subset hinput, heq⟩)
  obtain ⟨hpersist', hmouse'⟩ := stage.handle_keeps input.2
  refine ⟨⟨hpersist'.trans hpersist, hmouse'.trans hmouse⟩, fun past => ?_⟩
  rw [← hpersist]
  exact CompressionStage.handle_backed hmouse hunsuppressed past

theorem stored_initial (hs : (pipeline cfg).Reachable s) :
    (s .storage).current.stored <+: (s .storage).arrived.map Prod.snd := by
  have harrived : ((s .storage).taken.filterMap Prod.snd).map Prod.snd <+:
      (s .storage).arrived.map Prod.snd := (List.prefix_append _ _).map _
  cases storage_storing hs with
  | running _ _ hstored => exact hstored ▸ harrived
  | stopped _ htaken _ _ hstored =>
    refine hstored ▸ List.IsPrefix.trans ?_ harrived
    rw [htaken]
    exact ((List.prefix_append _ _).filterMap _).map _

theorem stored_backed (hs : (pipeline cfg).Reachable s) {first : List StorageCommand}
    (hfirst : first <+: (s .storage).current.stored) :
    ∀ command ∈ first, Backed cfg.persistRawEvents first command := by
  obtain ⟨msgs, hmsgs, rfl⟩ := List.prefix_map_iff.mp (hfirst.trans (stored_initial hs))
  have honly : only .compression msgs <+: (s .compression).sentTo .storage := by
    rw [← hs.arrived_from]
    exact hmsgs.filterMap _
  have hsupported := (compression_backed hs).of_initial honly
  intro command hcommand
  obtain ⟨⟨p, command⟩, hmem, rfl⟩ := List.mem_map.mp hcommand
  have hcompression : p = .compression → Backed cfg.persistRawEvents (msgs.map Prod.snd) command := by
    rintro rfl
    have hmem' : command ∈ (only .compression msgs : List (Stage.Msg .storage)) :=
      List.mem_filterMap.mpr ⟨(.compression, command), hmem, if_pos rfl⟩
    have hmono : ∀ front front' command, front <+: front' → Backed cfg.persistRawEvents front command →
        Backed cfg.persistRawEvents front' command := fun _ _ _ hprefix => Backed.mono hprefix.subset
    refine (hsupported.of_mem hmono hmem').mono fun other hother => ?_
    obtain ⟨msg, hmsg, hsome⟩ := List.mem_filterMap.mp hother
    split_ifs at hsome
    exact List.mem_map.mpr ⟨msg, hmsg, Option.some.inj hsome⟩
  cases storage_handsOver hs (hmsgs.subset hmem) with
  | rawEvent | compactEvents => exact hcompression rfl
  | signal | hint | record | transition | shutdown => trivial

end Run

/-! ### The tables -/

/-- The row, if it is one of `raw_events`. -/
def Row.asRawEvent : Row → Option RawEventRow
  | .rawEvent row => some row
  | _ => none

/-- The row, if it is one of `compact_events`. -/
def Row.asCompactEvent : Row → Option CompactRow
  | .compactEvent row => some row
  | _ => none

variable {serde : PayloadSerde}

theorem rawEvent_rows (commands : List StorageCommand) :
    (commands.flatMap (StorageCommand.rows serde)).filterMap Row.asRawEvent =
      (commands.filterMap asRawEvent).map storedRow := by
  refine filterMap_rows (fun command => ?_) commands
  cases command with
  | compactEvents events => exact filterMap_compactEvents (fun _ => rfl) events
  | rawEvent | record | envelope | transition | shutdown => rfl

theorem compactEvent_rows (commands : List StorageCommand) :
    (commands.flatMap (StorageCommand.rows serde)).filterMap Row.asCompactEvent =
      (commands.flatMap compactEventsOf).map compactRow := by
  induction commands with
  | nil => rfl
  | cons command commands ih =>
    have hrows : (command.rows serde).filterMap Row.asCompactEvent =
        (compactEventsOf command).map compactRow := by
      cases command with
      | compactEvents events =>
        rw [StorageCommand.rows, List.filterMap_map]
        exact congrFun (List.filterMap_eq_map (f := compactRow)) events
      | rawEvent | record | envelope | transition | shutdown => rfl
    rw [List.flatMap_cons, List.filterMap_append, hrows, ih, List.flatMap_cons, List.map_append]

theorem rawEventRef_compactRow (event : CompactEvent) : (compactRow event).rawEventRef = event.rawEventIds := by
  cases event <;> rfl

/-- For every interleaving of the pipeline threads, and at every moment at which the database is read,
which was new and in which no statement has failed before: each compact row points to raw events that are in
`raw_events`, or, if raw events are not persisted, to nothing, and `raw_events` is empty. -/
theorem compact_rows_backed (cfg : PipelineConfig)
    {s : Network.Config Stage.Msg Stage.Reading Stage.Local} (hs : (pipeline cfg).Reachable s)
    {backend : Backend} {db : Database} (hdb : (Database.machine serde backend).Reachable db)
    (hgiven : db.given <+: (s .storage).current.stored)
    (hok : db.WithoutFailure serde) :
    (∀ row ∈ db.visible.filterMap Row.asCompactEvent,
      if cfg.persistRawEvents then
        ∃ ids, row.rawEventRef = some ⟨defaultRawEventTable, ids⟩ ∧
          ∀ id ∈ ids, ∃ raw ∈ db.visible.filterMap Row.asRawEvent, raw.data.eventId = id
      else row.rawEventRef = none) ∧
      (cfg.persistRawEvents = false → db.visible.filterMap Row.asRawEvent = []) := by
  obtain ⟨first, hfirst, hvisible⟩ := Database.visible_prefix hdb hok
  have hbacked := stored_backed hs (hfirst.trans hgiven)
  rw [hvisible, rawEvent_rows, compactEvent_rows]
  refine ⟨fun row hrow => ?_, fun hpersist => ?_⟩
  · obtain ⟨event, hmem, rfl⟩ := List.mem_map.mp hrow
    obtain ⟨command, hcommand, hevent⟩ := List.mem_flatMap.mp hmem
    have hneeds : if cfg.persistRawEvents then
        ∃ ids, event.rawEventIds = some ⟨defaultRawEventTable, ids⟩ ∧
          ∀ id ∈ ids, ∃ raw ∈ first.filterMap asRawEvent, raw.eventId = id
        else event.rawEventIds = none := by
      cases command with
      | compactEvents events => exact hbacked _ hcommand event hevent
      | rawEvent | record | envelope | transition | shutdown => cases hevent
    rw [rawEventRef_compactRow]
    split_ifs with hpersist
    · rw [if_pos hpersist] at hneeds
      obtain ⟨ids, hids, hraws⟩ := hneeds
      refine ⟨ids, hids, fun id hid => ?_⟩
      obtain ⟨raw, hraw, heq⟩ := hraws id hid
      exact ⟨storedRow raw, List.mem_map_of_mem hraw, heq⟩
    · rwa [if_neg hpersist] at hneeds
  · rw [List.map_eq_nil_iff, List.filterMap_eq_nil_iff]
    intro command hcommand
    cases command with
    | rawEvent event =>
      have hpersisted : cfg.persistRawEvents = true := hbacked _ hcommand
      exact absurd (hpersist.symm.trans hpersisted) Bool.false_ne_true
    | record | envelope | compactEvents | transition | shutdown => rfl

/-- The compact row of a focus change points to its raw row. -/
theorem compact_rows_backed_focus :
    ∃ s db, (pipeline plainConfig).exec (pipeline plainConfig).start DaemonRun.focusSchedule = some s ∧
      (Database.machine Writer.blankSerde .sqlite).Reachable db ∧ db.given = (s .storage).current.stored ∧
      db.visible.filterMap Row.asCompactEvent ≠ [] ∧
      ∀ row ∈ db.visible.filterMap Row.asCompactEvent,
        ∃ ids, row.rawEventRef = some ⟨defaultRawEventTable, ids⟩ ∧
          ∀ id ∈ ids, ∃ raw ∈ db.visible.filterMap Row.asRawEvent, raw.data.eventId = id := by
  obtain ⟨s, hs⟩ := Option.isSome_iff_exists.mp (show ((pipeline plainConfig).exec
    (pipeline plainConfig).start DaemonRun.focusSchedule).isSome = true by decide)
  have hcheck : (((pipeline plainConfig).exec (pipeline plainConfig).start DaemonRun.focusSchedule).map
      fun s => ((s .storage).current.stored.all fun command => !Database.isShutdown command,
        ((s .storage).current.stored.flatMap compactEventsOf).length)) = some (true, 1) := by decide
  rw [hs] at hcheck
  simp only [Option.map_some, Option.some.injEq, Prod.mk.injEq, List.all_eq_true, Bool.not_eq_true']
    at hcheck
  obtain ⟨db, hdb, hgiven, hfinished, hok⟩ := Database.exists_written Writer.blankSerde .sqlite hcheck.1
  refine ⟨s, db, hs, hdb, hgiven, fun hnone => ?_,
    (compact_rows_backed plainConfig (.exec .start hs) hdb (hgiven ▸ List.prefix_rfl) hok).1⟩
  rw [Database.all_visible hdb hok hfinished, hgiven, compactEvent_rows, List.map_eq_nil_iff] at hnone
  rw [hnone] at hcheck
  exact absurd hcheck.2 (by decide)

end Kronical
