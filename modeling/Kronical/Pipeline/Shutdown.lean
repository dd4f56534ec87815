import Kronical.Lib.Farewell
import Kronical.Lib.Quiescence
import Kronical.Pipeline.System

/-!
# Shutting the pipeline down

The last message of a stage tells what it has done before. The hints stage completes once the
envelope stage has ended; the snapshot stage ends once the hints stage has completed (or all its
senders are gone), and its `Shutdown` is the last message to storage of all stages but the
compression stage. So none of the sends before it fails (`core_unrefused`), and what storage receives
before it is everything the envelope, hints and snapshot stages ever send to it.
-/

namespace Kronical

open Network

variable {cfg : PipelineConfig}
  {ok : Network.Config Stage.Msg Stage.Reading Stage.Local → Network.Action Stage.Reading → Prop}
  {s : Network.Config Stage.Msg Stage.Reading Stage.Local}

/-! ### Farewells -/

theorem ingest_farewell : (pipeline cfg).Farewell .ingest some (· = ⟨.envelope, .shutdown⟩) := by
  intro self wake input
  rw [List.filterMap_some]
  rcases IngestStage.handle_sends self wake with hsends | ⟨front, hout, hsends, hstops⟩
  · refine .inl fun packet hmem hlast => ?_
    subst hlast
    cases hsends _ hmem
  · refine .inr ⟨front, _, hout, fun packet hmem hlast => ?_, hstops⟩
    subst hlast
    cases hsends _ hmem

theorem envelope_farewell :
    (pipeline cfg).Farewell .envelope some (· = ⟨.compression, .shutdown⟩) := by
  intro self reading cmd
  rw [List.filterMap_some]
  rcases EnvelopeStage.handle_sends self cmd with hsends | ⟨hout, hstops⟩
  · refine .inl fun packet hmem hlast => ?_
    subst hlast
    cases hsends _ hmem
  · refine .inr ⟨[⟨.snapshot, .shutdown⟩], _, hout, fun packet hmem hlast => ?_, hstops⟩
    rw [hlast] at hmem
    cases List.mem_singleton.mp hmem

theorem envelope_to_snapshot_farewell :
    (pipeline cfg).Farewell .envelope (Packet.to Stage.snapshot) (· = SnapshotMessage.shutdown) := by
  intro self reading cmd
  rcases EnvelopeStage.handle_sends self cmd with hsends | ⟨hout, hstops⟩
  · refine .inl fun msg hmem hlast => ?_
    subst hlast
    obtain ⟨packet, hpacket, hto⟩ := List.mem_filterMap.mp hmem
    cases hsends packet hpacket <;> simp [Packet.to] at hto
  · refine .inr ⟨[], SnapshotMessage.shutdown, ?_, by simp, hstops⟩
    show List.filterMap _ (EnvelopeStage.handle self cmd).2 = _
    rw [hout]
    rfl

theorem hints_farewell :
    (pipeline cfg).Farewell .hints some (· = ⟨.snapshot, .hintsComplete⟩) := by
  intro self clock env?
  rw [List.filterMap_some]
  rcases HintsStage.handle_sends self clock env? with ⟨hsends, -⟩ | ⟨front, hout, hsends, hstops, -⟩
  · refine .inl fun packet hmem hlast => ?_
    subst hlast
    cases hsends _ hmem
  · refine .inr ⟨front, _, hout, fun packet hmem hlast => ?_, hstops⟩
    subst hlast
    cases hsends _ hmem

theorem snapshot_farewell :
    (pipeline cfg).Farewell .snapshot some (· = ⟨.storage, .shutdown⟩) := by
  intro self now msg?
  rw [List.filterMap_some]
  rcases SnapshotStage.handle_sends self now msg? with ⟨transition?, hout⟩ | ⟨hout, hstops⟩
  · refine .inl fun packet hmem hlast => ?_
    subst hlast
    obtain ⟨transition, -, heq⟩ := List.mem_map.mp (hout ▸ hmem)
    cases heq
  · exact .inr ⟨[], _, hout, by simp, hstops⟩

/-! ### What the end of a stage tells -/

theorem heard_from (hs : (pipeline cfg).Reach ok s) {n p : Stage} {m : n.Msg}
    (hmem : (p, m) ∈ (s n).arrived) : p ∈ n.senders.erase .spawner := by
  refine (List.mem_erase_of_ne ?_).mpr (hs.from_sender hmem)
  rintro rfl
  obtain ⟨_, _, _, hout⟩ := hs.arrived_answers hmem
  cases hout

theorem envelope_ended_of_hints (hs : (pipeline cfg).Reach ok s)
    (hstopped : (s .hints).current.stopped = true) : (s .envelope).ended = true := by
  obtain ⟨state, clock, input, htaken, hrunning, hstops⟩ :=
    hs.halted_cause (n := .hints) rfl (.inr fun _ _ _ h => h) hstopped
  have hnone : input = none := by
    rcases HintsStage.handle_sends state clock (input.map Prod.snd) with
      ⟨-, hsame⟩ | ⟨-, -, -, -, hclosed⟩
    · exact absurd (hsame.symm.trans hstops) (Bool.not_eq_true _ ▸ hrunning)
    · exact Option.map_eq_none_iff.mp hclosed
  subst hnone
  exact (hs.closed htaken).2 .envelope (show Stage.envelope ∈ Stage.hints.senders by decide)

theorem hints_done_of_complete (hs : (pipeline cfg).Reach ok s)
    (hrefused : (s .hints).refused = false) {p : Stage}
    (hmem : (p, SnapshotMessage.hintsComplete) ∈ (s .snapshot).arrived) :
    p = .hints ∧ (s .hints).outbox = [] ∧ (s .hints).current.stopped = true := by
  obtain ⟨state, reading, input, hout⟩ := hs.arrived_answers hmem
  rcases List.mem_pair.mp (heard_from hs hmem) with rfl | rfl
  · obtain ⟨houtbox, hstopped⟩ := hints_farewell.done hs hrefused
      (m := ⟨.snapshot, .hintsComplete⟩)
      (by rw [List.filterMap_some]; exact hs.sent_of_arrived hmem) rfl
    rw [List.filterMap_some] at houtbox
    exact ⟨rfl, houtbox, hstopped⟩
  · rcases EnvelopeStage.handle_sends state input with hsends | ⟨hends, -⟩
    · cases hsends _ hout
    · change _ ∈ (EnvelopeStage.handle state input).2 at hout
      rw [hends] at hout
      simp at hout

theorem SnapshotStage.maybeFinalize_flags {self : SnapshotStage}
    (hsent : self.storageShutdownSent = false) (hstopped : self.stopped = false)
    (shutdownRequested hintsComplete : Bool) (now : DateTime) :
    let next := (self.maybeFinalize shutdownRequested hintsComplete now).1
    next.storageShutdownSent = next.stopped ∧ next.hintsComplete = self.hintsComplete ∧
      next.shutdownRequested = self.shutdownRequested ∧
      next.stopped = (shutdownRequested && hintsComplete) ∧
      (next.stopped = true → next.bus.snapshot.counts = next.counts ∧
        (self.maybeFinalize shutdownRequested hintsComplete now).2 = [⟨.storage, .shutdown⟩]) := by
  unfold maybeFinalize
  rw [hsent]
  cases shutdownRequested <;> cases hintsComplete
  · exact ⟨hsent.trans hstopped.symm, rfl, rfl, hstopped, fun h => absurd (hstopped.symm.trans h) nofun⟩
  · exact ⟨hsent.trans hstopped.symm, rfl, rfl, hstopped, fun h => absurd (hstopped.symm.trans h) nofun⟩
  · exact ⟨hsent.trans hstopped.symm, rfl, rfl, hstopped, fun h => absurd (hstopped.symm.trans h) nofun⟩
  · exact ⟨rfl, rfl, rfl, rfl, fun _ => ⟨rfl, rfl⟩⟩

theorem SnapshotStage.handle_flags {self : SnapshotStage}
    (hsent : self.storageShutdownSent = false) (hstopped : self.stopped = false) (now : DateTime)
    (msg? : Option SnapshotMessage) :
    let next := (self.handle now msg?).1
    next.storageShutdownSent = next.stopped ∧
      (next.hintsComplete = true → self.hintsComplete = true ∨ msg? = some .hintsComplete) ∧
      (next.shutdownRequested = true → self.shutdownRequested = true ∨ msg? = some .shutdown) ∧
      (next.stopped = true →
        (msg? = none ∨ next.hintsComplete = true ∧ next.shutdownRequested = true) ∧
        next.bus.snapshot.counts = next.counts ∧
        (self.handle now msg?).2 = [⟨.storage, .shutdown⟩]) := by
  match msg? with
  | some (.update update) =>
    show let next := (self.applyUpdate update).1
      next.storageShutdownSent = next.stopped ∧ _
    have hkeeps : (self.applyUpdate update).1.storageShutdownSent = false ∧
        (self.applyUpdate update).1.stopped = false ∧
        (self.applyUpdate update).1.hintsComplete = self.hintsComplete ∧
        (self.applyUpdate update).1.shutdownRequested = self.shutdownRequested := by
      unfold applyUpdate
      cases update.transition <;> exact ⟨hsent, hstopped, rfl, rfl⟩
    obtain ⟨h1, h2, h3, h4⟩ := hkeeps
    refine ⟨h1.trans h2.symm, fun h => .inl (h3 ▸ h), fun h => .inl (h4 ▸ h), fun h => ?_⟩
    exact absurd (h2.symm.trans h) nofun
  | some (.record record) =>
    exact ⟨hsent.trans hstopped.symm, .inl, .inl, fun h => absurd (hstopped.symm.trans h) nofun⟩
  | some .publish =>
    exact ⟨hsent.trans hstopped.symm, .inl, .inl, fun h => absurd (hstopped.symm.trans h) nofun⟩
  | some .hintsComplete =>
    obtain ⟨h1, h2, h3, h4, h5⟩ := @maybeFinalize_flags { self with hintsComplete := true }
      hsent hstopped self.shutdownRequested true now
    refine ⟨h1, fun _ => .inr rfl, fun h => .inl (h3.symm.trans h), fun h => ⟨.inr ⟨h2, ?_⟩, h5 h⟩⟩
    refine h3.trans ?_
    have hboth := h4.symm.trans h
    simpa using hboth
  | some .shutdown =>
    obtain ⟨h1, h2, h3, h4, h5⟩ := @maybeFinalize_flags { self with shutdownRequested := true }
      hsent hstopped true self.hintsComplete now
    refine ⟨h1, fun h => .inl (h2.symm.trans h), fun _ => .inr rfl, fun h => ⟨.inr ⟨?_, h3⟩, h5 h⟩⟩
    refine h2.trans ?_
    have hboth := h4.symm.trans h
    simpa using hboth
  | none =>
    obtain ⟨h1, h2, h3, h4, h5⟩ := maybeFinalize_flags hsent hstopped true true now
    have hhandle : self.handle now none =
        ({ (self.maybeFinalize true true now).1 with stopped := true },
          (self.maybeFinalize true true now).2) := by
      unfold handle
      simp only [hsent, Bool.not_false, if_true]
    rw [hhandle]
    refine ⟨h1.trans h4, fun h => .inl (h2.symm.trans h), fun h => .inl (h3.symm.trans h), fun _ => ?_⟩
    exact ⟨.inl rfl, h5 h4⟩

/-- What is known of the snapshot stage at any time. -/
structure Tidy (node : Node Stage.Msg Stage.Reading Stage.Local .snapshot) : Prop where
  marked : node.current.storageShutdownSent = node.current.stopped
  complete : node.current.hintsComplete = true →
    ∃ now p, (now, some (p, SnapshotMessage.hintsComplete)) ∈ node.taken
  requested : node.current.shutdownRequested = true →
    ∃ now p, (now, some (p, SnapshotMessage.shutdown)) ∈ node.taken
  ending : node.current.stopped = true → (∃ now, (now, none) ∈ node.taken) ∨
    node.current.hintsComplete = true ∧ node.current.shutdownRequested = true
  published : node.current.stopped = true →
    node.current.bus.snapshot.counts = node.current.counts
  told : node.refused = false → node.current.stopped = true →
    (⟨.storage, .shutdown⟩ : Packet) ∈ node.sent ++ node.outbox

theorem SnapshotStage.new_flags (bus : SnapshotBus) (retentionMinutes : Nat)
    (records : List ActivityRecord) (transitions : List Transition) (now : DateTime) :
    let stage := new bus retentionMinutes records transitions now
    stage.storageShutdownSent = false ∧ stage.hintsComplete = false ∧
      stage.shutdownRequested = false ∧ stage.stopped = false ∧ stage.counts = .default := by
  have hfold : ∀ stage : SnapshotStage, ∀ ts : List Transition,
      (ts.foldl hydrate stage).storageShutdownSent = stage.storageShutdownSent ∧
        (ts.foldl hydrate stage).hintsComplete = stage.hintsComplete ∧
        (ts.foldl hydrate stage).shutdownRequested = stage.shutdownRequested ∧
        (ts.foldl hydrate stage).stopped = stage.stopped ∧
        (ts.foldl hydrate stage).counts = stage.counts := by
    intro stage ts
    induction ts generalizing stage with
    | nil => exact ⟨rfl, rfl, rfl, rfl, rfl⟩
    | cons t ts ih => exact ih (stage.hydrate t)
  exact hfold _ transitions

theorem snapshot_tidy (hs : (pipeline cfg).Reach ok s) : Tidy (s .snapshot) := by
  refine hs.node_invariant (I := Tidy) ?_ ?_
  · obtain ⟨h1, h2, h3, h4, -⟩ := SnapshotStage.new_flags (.new cfg.runId) cfg.retentionMinutes
      cfg.initialRecords cfg.initialTransitions cfg.snapshotStarted
    constructor
    · exact h1.trans h4.symm
    · exact fun h => absurd (h2.symm.trans h) nofun
    · exact fun h => absurd (h3.symm.trans h) nofun
    · exact fun h => absurd (h4.symm.trans h) nofun
    · exact fun h => absurd (h4.symm.trans h) nofun
    · exact fun _ h => absurd (h4.symm.trans h) nofun
  · intro s a node _ hturn ih
    cases hturn with
    | idle => exact ⟨ih.marked, ih.complete, ih.requested, ih.ending, ih.published, ih.told⟩
    | @recv now input queue hended houtbox hhalted hoffer =>
      obtain ⟨hmarked, hcomplete, hrequested, hends⟩ := SnapshotStage.handle_flags
        (ih.marked.trans hhalted) hhalted now (input.map Prod.snd)
      have hnew : ∀ {msg}, input.map Prod.snd = some msg →
          ∃ now' p, (now', some (p, msg)) ∈ (s .snapshot).taken ++ [(now, input)] := by
        intro msg hmsg
        obtain ⟨⟨p, _⟩, rfl, rfl⟩ := Option.map_eq_some_iff.mp hmsg
        exact ⟨now, p, List.mem_append_right _ List.mem_cons_self⟩
      have hold : ∀ {msg}, (∃ now' p, (now', some (p, msg)) ∈ (s .snapshot).taken) →
          ∃ now' p, (now', some (p, msg)) ∈ (s .snapshot).taken ++ [(now, input)] := by
        rintro msg ⟨now', p, hmem⟩
        exact ⟨now', p, List.mem_append_left _ hmem⟩
      constructor
      · exact hmarked
      · exact fun h => (hcomplete h).elim (fun h => hold (ih.complete h)) hnew
      · exact fun h => (hrequested h).elim (fun h => hold (ih.requested h)) hnew
      · intro h
        refine (hends h).1.imp_left fun hnone => ?_
        have hinput : input = none := Option.map_eq_none_iff.mp hnone
        exact ⟨now, List.mem_append_right _ (hinput ▸ List.mem_cons_self)⟩
      · exact fun h => (hends h).2.1
      · intro _ h
        refine List.mem_append_right _ ?_
        show _ ∈ (SnapshotStage.handle _ now (input.map Prod.snd)).2
        rw [(hends h).2.2]
        exact List.mem_cons_self
    | @send packet rest queue houtbox hended =>
      refine ⟨ih.marked, ih.complete, ih.requested, ih.ending, ih.published, fun hrefused h => ?_⟩
      have htold := ih.told hrefused h
      rw [houtbox] at htold
      simpa [dispatched] using htold
    | refuse houtbox hended =>
      exact ⟨ih.marked, ih.complete, ih.requested, ih.ending, ih.published, fun h => by cases h⟩
    | finish => exact ⟨ih.marked, ih.complete, ih.requested, ih.ending, ih.published, ih.told⟩

theorem done_of_snapshot (hs : (pipeline cfg).Reach ok s) (hrefused : (s .hints).refused = false)
    (hstopped : (s .snapshot).current.stopped = true) :
    (s .hints).outbox = [] ∧ (s .hints).current.stopped = true ∧ (s .envelope).ended = true := by
  have hhints : (s .hints).outbox = [] ∧ (s .hints).current.stopped = true := by
    rcases (snapshot_tidy hs).ending hstopped with ⟨now, hclosed⟩ | ⟨hcomplete, -⟩
    · have hended := (hs.closed hclosed).2 .hints
        (show Stage.hints ∈ Stage.snapshot.senders by decide)
      exact hs.done_of_ended .hints hended
    · obtain ⟨now, p, htaken⟩ := (snapshot_tidy hs).complete hcomplete
      exact (hints_done_of_complete hs hrefused (Node.mem_arrived htaken)).2
  exact ⟨hhints.1, hhints.2, envelope_ended_of_hints hs hhints.2⟩

theorem snapshot_done_of_shutdown (hs : (pipeline cfg).Reach ok s)
    (hrefused : (s .snapshot).refused = false) {p : Stage}
    (hmem : (p, StorageCommand.shutdown) ∈ (s .storage).arrived) :
    p = .snapshot ∧ (s .snapshot).outbox = [] ∧ (s .snapshot).current.stopped = true := by
  obtain ⟨state, reading, input, hout⟩ := hs.arrived_answers hmem
  have hfrom : p ∈ [Stage.hints, .compression, .snapshot, .envelope] := heard_from hs hmem
  simp only [List.mem_cons, List.not_mem_nil, or_false] at hfrom
  rcases hfrom with rfl | rfl | rfl | rfl
  · rcases HintsStage.handle_sends state reading input with ⟨hsends, -⟩ | ⟨front, hends, hsends, -⟩
    · cases hsends _ hout
    · change _ ∈ (HintsStage.handle state reading input).2 at hout
      rw [hends] at hout
      rcases List.mem_append.mp hout with hout | hout
      · cases hsends _ hout
      · simp at hout
  · cases CompressionStage.handle_sends state input _ hout
  · obtain ⟨houtbox, hstopped⟩ := snapshot_farewell.done hs hrefused
      (m := ⟨.storage, .shutdown⟩)
      (by rw [List.filterMap_some]; exact hs.sent_of_arrived hmem) rfl
    rw [List.filterMap_some] at houtbox
    exact ⟨rfl, houtbox, hstopped⟩
  · rcases EnvelopeStage.handle_sends state input with hsends | ⟨hends, -⟩
    · cases hsends _ hout
    · change _ ∈ (EnvelopeStage.handle state input).2 at hout
      rw [hends] at hout
      simp at hout

/-! ### No send of the shutdown fails -/

/-- The stages whose work the shutdown waits for, and the ingest stage. -/
def Core (n : Stage) : Prop := n = .ingest ∨ n = .envelope ∨ n = .hints ∨ n = .snapshot

theorem EnvelopeStage.handle_stopped {self : EnvelopeStage} {cmd : Option DeriveCommand}
    (hrunning : self.stopped = false) (hstops : (self.handle cmd).1.stopped = true) :
    cmd = none ∨ cmd = some .shutdown := by
  match cmd with
  | some (.batch ⟨[], reason⟩) => exact absurd (hrunning.symm.trans hstops) nofun
  | some (.batch ⟨e :: events, reason⟩) => exact absurd (hrunning.symm.trans hstops) nofun
  | some (.tick now) =>
    rw [handle_eq] at hstops
    exact absurd (hrunning.symm.trans hstops) nofun
  | some .shutdown => exact .inr rfl
  | none => exact .inl rfl

theorem CompressionStage.handle_stopped {self : CompressionStage} {cmd : Option CompressionCommand}
    (hrunning : self.stopped = false) (hstops : (self.handle cmd).1.stopped = true) :
    cmd = none ∨ cmd = some .shutdown := by
  match cmd with
  | some (.process ⟨[], reason⟩ envelopes) => exact absurd (hrunning.symm.trans hstops) nofun
  | some (.process ⟨e :: events, reason⟩ envelopes) =>
    exact absurd (hrunning.symm.trans hstops) nofun
  | some .shutdown => exact .inr rfl
  | none => exact .inl rfl

theorem StorageStage.handle_stopped {self : StorageStage} {cmd : Option StorageCommand}
    (hrunning : self.stopped = false) (hstops : (self.handle cmd).1.stopped = true) :
    cmd = none ∨ cmd = some .shutdown := by
  match cmd with
  | some .shutdown => exact .inr rfl
  | none => exact .inl rfl
  | some (.rawEvent _) | some (.record _) | some (.envelope _) | some (.compactEvents _)
  | some (.transition _) => exact absurd (hrunning.symm.trans hstops) nofun

theorem CompressionStage.refuse_stopped (self : CompressionStage) (packet : Packet)
    (rest : List Packet) : (self.refuse packet rest).1.stopped = self.stopped := by
  unfold refuse
  split <;> rfl

theorem closed_or_shutdown (hs : (pipeline cfg).Reach ok s) {n : Stage} {m : n.Msg}
    (hinit : n.halted (n.init cfg) = false)
    (hkeep : (s n).refused = false ∨ ∀ state packet rest,
      n.halted (n.refuse state packet rest).1 = true → n.halted state = true)
    (hstops : ∀ state reading msg?, n.halted state = false →
      n.halted (n.handle state reading msg?).1 = true → msg? = none ∨ msg? = some m)
    (hended : (s n).ended = true) :
    (∀ p ∈ n.senders, (s p).ended = true) ∨ ∃ p, (p, m) ∈ (s n).arrived := by
  obtain ⟨state, reading, input, htaken, hrunning, hstopped⟩ :=
    hs.halted_cause (n := n) hinit hkeep (hs.done_of_ended n hended).2
  rcases hstops state reading (input.map Prod.snd) hrunning hstopped with hnone | hshutdown
  · have hinput : input = none := Option.map_eq_none_iff.mp hnone
    subst hinput
    exact .inl (hs.closed htaken).2
  · obtain ⟨⟨p, msg⟩, rfl, rfl⟩ := Option.map_eq_some_iff.mp hshutdown
    exact .inr ⟨p, Node.mem_arrived htaken⟩

/-- No send of the ingest, envelope, hints and snapshot stages ever fails. -/
theorem core_unrefused (hs : (pipeline cfg).Reach ok s) : ∀ n, Core n → (s n).refused = false := by
  refine hs.none_refused (N := Core) fun s hs hcore n packet rest hn houtbox => ?_
  have hingest := hcore .ingest (.inl rfl)
  have henvelope := hcore .envelope (.inr (.inl rfl))
  have hhints := hcore .hints (.inr (.inr (.inl rfl)))
  have hsnapshot := hcore .snapshot (.inr (.inr (.inr rfl)))
  have hsender : n ∈ packet.1.senders :=
    hs.addressed n packet (List.mem_append_right _ (houtbox ▸ List.mem_cons_self))
  -- whoever has ended has been told that nothing more comes
  have hbusy : (s n).outbox ≠ [] := by
    rw [houtbox]
    exact List.cons_ne_nil packet rest
  by_contra hended
  rw [Bool.not_eq_false] at hended
  obtain ⟨k, msg⟩ := packet
  dsimp only at hended hsender
  cases k with
  | spawner => cases msg
  | ingest => cases msg
  | envelope =>
    obtain rfl : n = .ingest := List.mem_singleton.mp hsender
    rcases closed_or_shutdown hs (n := .envelope) (m := DeriveCommand.shutdown) rfl
      (.inl henvelope) (fun _ _ _ => EnvelopeStage.handle_stopped) hended with hgone | ⟨p, hmem⟩
    · exact hbusy (hs.done_of_ended .ingest (hgone _ hsender)).1
    · obtain rfl : p = .ingest := List.mem_singleton.mp (heard_from hs hmem)
      have hdone := (ingest_farewell.done hs hingest (m := ⟨.envelope, .shutdown⟩)
        (by rw [List.filterMap_some]; exact hs.sent_of_arrived hmem) rfl).1
      exact hbusy (by rwa [List.filterMap_some] at hdone)
  | hints =>
    have hstopped := (hs.done_of_ended .hints hended).2
    have hgone := envelope_ended_of_hints hs hstopped
    rcases hn with rfl | rfl | rfl | rfl
    · exact absurd hsender (by decide)
    · exact hbusy (hs.done_of_ended .envelope hgone).1
    · exact absurd hsender (by decide)
    · exact absurd hsender (by decide)
  | compression =>
    have hgone : (s .envelope).outbox = [] := by
      rcases closed_or_shutdown hs (n := .compression) (m := CompressionCommand.shutdown) rfl
        (.inr fun state packet rest h => (state.refuse_stopped packet rest).symm.trans h)
        (fun _ _ _ => CompressionStage.handle_stopped) hended with hgone | ⟨p, hmem⟩
      · exact (hs.done_of_ended .envelope (hgone .envelope (by decide))).1
      · obtain rfl : p = .envelope := List.mem_singleton.mp (heard_from hs hmem)
        have hdone := (envelope_farewell.done hs henvelope (m := ⟨.compression, .shutdown⟩)
          (by rw [List.filterMap_some]; exact hs.sent_of_arrived hmem) rfl).1
        rwa [List.filterMap_some] at hdone
    rcases hn with rfl | rfl | rfl | rfl
    · exact absurd hsender (by decide)
    · exact hbusy hgone
    · exact absurd hsender (by decide)
    · exact absurd hsender (by decide)
  | snapshot =>
    obtain ⟨hdone, -, hgone⟩ := done_of_snapshot hs hhints (hs.done_of_ended .snapshot hended).2
    rcases hn with rfl | rfl | rfl | rfl
    · exact absurd hsender (by decide)
    · exact hbusy (hs.done_of_ended .envelope hgone).1
    · exact hbusy hdone
    · exact absurd hsender (by decide)
  | storage =>
    rcases closed_or_shutdown hs (n := .storage) (m := StorageCommand.shutdown) rfl
      (.inr fun _ _ _ h => h) (fun _ _ _ => StorageStage.handle_stopped) hended with
        hgone | ⟨p, hmem⟩
    · exact hbusy (hs.done_of_ended n (hgone n hsender)).1
    · obtain ⟨-, hquiet, hstopped⟩ := snapshot_done_of_shutdown hs hsnapshot hmem
      obtain ⟨hdone, -, hgone⟩ := done_of_snapshot hs hhints hstopped
      rcases hn with rfl | rfl | rfl | rfl
      · exact absurd hsender (by decide)
      · exact hbusy (hs.done_of_ended .envelope hgone).1
      · exact hbusy hdone
      · exact hbusy hquiet

end Kronical
